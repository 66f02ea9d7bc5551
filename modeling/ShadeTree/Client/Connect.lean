import ShadeTree.Client.PlanEnvelope
import ShadeTree.Lib.Run

/-!
# Tunnels (`connect`, `_dial`, `buildEnvelope`, `retryableGatewayRefusal` in `client/shade-tree-client.mjs`)

A call of `connect` plans one wire profile, takes one slot, makes one envelope, and shows it to the gateways of its
plan one after the other until one accepts it or refuses it for good.  Calls run at the same time and share what the
client learned of the gateways.  A call is suspended while it proves and while it waits for a gateway; from the plan to
the slot, and with one answer, nothing comes between.

Left out are the events for `onEvent`, the circuit credentials of SOCKS and the receipts; what the network does with
an attempt is any.
-/

namespace ShadeTree.Client

open ShadeTree.Lib
open ShadeTree.Bootnode (dropOnion)

/-! ### One attempt -/

/-- What the network does with an attempt; an error is the message that is thrown. -/
structure Attempt where
  /-- `createConnection`, try by try. -/
  connection : ℕ → Except String Unit
  setNoDelay : Except String Unit
  /-- The socket is still open when the envelope is to be written. -/
  opened : Bool
  /-- `exchangeGatewayAck`: the line as JSON, none if it is not JSON. -/
  frame : Except String (Option Value)
  closed : opened = false → ∃ message, frame = .error message

/-- `_dial`, from the try `i` on; what is thrown is `undefined` if there was no try. -/
def dialFrom (connection : ℕ → Except String Unit) (lastErr : Option String) (i : ℕ) : ℕ → Except (Option String) Unit
  | 0 => .error lastErr
  | attempts + 1 =>
    match connection i with
    | .ok () => .ok ()
    | .error message => dialFrom connection (some message) (i + 1) attempts

def dial (connection : ℕ → Except String Unit) (attempts : ℕ) : Except (Option String) Unit :=
  dialFrom connection none 0 attempts

/-- The acknowledgement, when it is an object whose `ok` is a boolean. -/
def ackOf (line : Option Value) : Except String Value :=
  match line with
  | none => .error "gateway returned an invalid JSON acknowledgement"
  | some (.obj fields) =>
    match (Json.obj fields).get "ok" with
    | some (.bool _) => .ok (.obj fields)
    | _ => .error "gateway returned a malformed acknowledgement"
  | some _ => .error "gateway returned a malformed acknowledgement"

/-- `ack.ok === true`. -/
def isOk (ack : Value) : Bool :=
  match ack.get "ok" with
  | some (.bool ok) => ok
  | _ => false

def retryableGatewayRefusal (ack : Option Value) : Bool :=
  let reason := ackReason ack
  reason == "too-many-connections" || reason == "nullifier-conn-limit" || reason == "gateway-error" ||
    reason == "bad-target-dns" || startsWithAny ["upstream:"] reason

/-- How an attempt ends. -/
inductive Verdict where
  | accepted
  | unreachable (message : String)
  | mismatch (message : String)
  | transient (message : String)
  | refused (message : String)
  /-- The handler of a failure reads `message` of `undefined`. -/
  | threw

def Verdict.isAccepted : Verdict → Bool
  | .accepted => true
  | _ => false

/-- `lastErr.message`. -/
def Verdict.message : Verdict → Option String
  | .unreachable message | .mismatch message | .transient message | .refused message => some message
  | .accepted | .threw => none

/-- The next gateway is tried. -/
def Verdict.goesOn : Verdict → Bool
  | .unreachable _ | .mismatch _ | .transient _ => true
  | _ => false

/-- What an attempt did: whether there was a socket, what was written to it, the acknowledgement, whether the socket was
destroyed, and what `reportResult` was told. -/
structure Tried (W : Type) where
  connected : Bool
  wrote : Option W
  ack : Option Value
  destroyed : Bool
  report : Option Bool
  verdict : Verdict

namespace Planner

variable {W : Type} (C : Planner)

/-- `sel?.reportResult?.(cand, { ok })`; a pinned client has no selection. -/
def reportResult (ok : Bool) : Option Bool := if C.onion.isSome then none else some ok

/-- The body of the loop of `connect`. -/
def attempt (dialAttempts : ℕ) (wire : W) (a : Attempt) (onion : List Char) : Planner × Tried W :=
  match dial a.connection dialAttempts with
  | .error none => (C, ⟨false, none, none, false, C.reportResult false, .threw⟩)
  | .error (some message) => (C, ⟨false, none, none, false, C.reportResult false, .unreachable message⟩)
  | .ok () =>
    match a.setNoDelay with
    | .error message => (C, ⟨true, none, none, true, C.reportResult false, .unreachable message⟩)
    | .ok () =>
      let wrote := if a.opened then some wire else none
      match a.frame.bind ackOf with
      | .error message => (C, ⟨true, wrote, none, true, C.reportResult false, .unreachable message⟩)
      | .ok ack =>
        if isOk ack then (C, ⟨true, wrote, some ack, false, C.reportResult true, .accepted⟩)
        else
          let (C', refusal) := C.gateRefusalError (some ack) onion
          if refusal.gatewayCapabilityMismatch then (C', ⟨true, wrote, some ack, true, none, .mismatch refusal.message⟩)
          else if retryableGatewayRefusal (some ack) then
            (C', ⟨true, wrote, some ack, true, C.reportResult false, .transient refusal.message⟩)
          else (C', ⟨true, wrote, some ack, true, none, .refused refusal.message⟩)

end Planner

/-! ### Calls that interleave -/

/-- An envelope: the version and the artifact it names, and the slot its proof spends. -/
structure Wire (B : Type) where
  version : ℤ
  artifact : String
  slot : ℕ × ℕ
  body : B

/-- What is thrown when there is no plan. -/
def Unplanned.message (refused : Unplanned) : String :=
  (match refused.stage with
    | .version => "version"
    | .artifact => "artifact") ++ " negotiation failed: " ++ refused.reason.getD "undefined"

/-- Where a call is. -/
inductive Pc (B : Type) where
  | idle
  | proving (plan : Plan) (slot : ℕ × ℕ)
  | dialing (wire : Wire B) (onions : List (List Char)) (lastErr : Option String)
  | done

/-- The client: what is shared, and the calls. -/
structure Calls (T B : Type) where
  planner : Planner
  calls : T → Pc B

/-- What a step shows. -/
inductive ConnectEvent (T B : Type) where
  | planned (t : T) (plan : Plan) (slot : ℕ × ℕ)
  | failed (t : T) (message : String)
  | built (t : T) (wire : Wire B)
  | attempted (t : T) (onion : List Char) (tried : Tried (Wire B))

section Steps

variable {T B : Type} [DecidableEq T] (dialAttempts : ℕ)

/-- One step of one call.  `nextSlot` and the prover may fail; a prover names the artifact that it used, or none. -/
inductive ConnectStep : Calls T B → ConnectEvent T B → Calls T B → Prop where
  | planned {s : Calls T B} {t : T} {cands : List Candidate} {plan : Plan} {slot : ℕ × ℕ} :
      s.calls t = .idle → s.planner.planEnvelope cands = .ok plan →
      ConnectStep s (.planned t plan slot) { s with calls := Function.update s.calls t (.proving plan slot) }
  | unplanned {s : Calls T B} {t : T} {cands : List Candidate} {refused : Unplanned} :
      s.calls t = .idle → s.planner.planEnvelope cands = .error refused →
      ConnectStep s (.failed t refused.message) { s with calls := Function.update s.calls t .done }
  | exhausted {s : Calls T B} {t : T} {cands : List Candidate} {plan : Plan} {message : String} :
      s.calls t = .idle → s.planner.planEnvelope cands = .ok plan →
      ConnectStep s (.failed t message) { s with calls := Function.update s.calls t .done }
  | built {s : Calls T B} {t : T} {plan : Plan} {slot : ℕ × ℕ} {used : Option String} {body : B} :
      s.calls t = .proving plan slot →
      ConnectStep s (.built t ⟨plan.version, used.getD plan.artifact, slot, body⟩)
        { s with
          calls := Function.update s.calls t
            (.dialing ⟨plan.version, used.getD plan.artifact, slot, body⟩ (plan.cands.map Candidate.onion) none) }
  | unproved {s : Calls T B} {t : T} {plan : Plan} {slot : ℕ × ℕ} {message : String} :
      s.calls t = .proving plan slot →
      ConnectStep s (.failed t message) { s with calls := Function.update s.calls t .done }
  | attempted {s : Calls T B} {t : T} {wire : Wire B} {onion : List Char} {onions : List (List Char)}
      {lastErr : Option String} {a : Attempt} {C : Planner} {tried : Tried (Wire B)} :
      s.calls t = .dialing wire (onion :: onions) lastErr →
      s.planner.attempt dialAttempts wire a onion = (C, tried) →
      ConnectStep s (.attempted t onion tried)
        { planner := C
          calls := Function.update s.calls t
            (if tried.verdict.goesOn then .dialing wire onions tried.verdict.message else .done) }
  | unreached {s : Calls T B} {t : T} {wire : Wire B} {lastErr : Option String} :
      s.calls t = .dialing wire [] lastErr →
      ConnectStep s (.failed t (lastErr.getD "no gateway reachable"))
        { s with calls := Function.update s.calls t .done }

end Steps

/-! ### What one attempt does -/

/-- What a refusal teaches. -/
def Tried.learned {W : Type} (tried : Tried W) : Option CapabilityRefusal :=
  if tried.verdict.isAccepted then none else capabilityRefusal tried.ack

/-- What an attempt may do: it writes nothing but the wire, leaves a socket open only for the tunnel, and reports what
is evidence about the gateway. -/
structure Fair {W : Type} (pinned : Option (List Char)) (wire : W) (tried : Tried W) : Prop where
  wrote : ∀ w, tried.wrote = some w → w = wire
  destroyed : tried.destroyed = (tried.connected && !tried.verdict.isAccepted)
  report : tried.report = if pinned.isSome then none else
    match tried.verdict with
    | .accepted => some true
    | .unreachable _ | .transient _ | .threw => some false
    | .mismatch _ | .refused _ => none
  served : tried.verdict.isAccepted = true → tried.connected = true ∧ tried.wrote = some wire ∧
    tried.ack.any isOk = true

section Attempt

variable {W : Type} {C : Planner} {dialAttempts : ℕ} {wire : W} {a : Attempt} {onion : List Char} {tried : Tried W}

lemma gateRefusalError_fst (ack : Option Value) : (C.gateRefusalError ack onion).1 =
    (capabilityRefusal ack).elim C (C.learn onion) := by
  unfold Planner.gateRefusalError
  cases capabilityRefusal ack with
  | none => rfl
  | some learned => cases learned <;> rfl

lemma gateRefusalError_mismatch (ack : Option Value) :
    (C.gateRefusalError ack onion).2.gatewayCapabilityMismatch = (capabilityRefusal ack).isSome := by
  unfold Planner.gateRefusalError
  cases capabilityRefusal ack with
  | none => rfl
  | some learned => cases learned <;> rfl

/-- The client learns what the gateway told, and nothing else. -/
lemma attempt_learned {C' : Planner} (h : C.attempt dialAttempts wire a onion = (C', tried)) :
    C' = tried.learned.elim C (C.learn onion) := by
  unfold Planner.attempt at h
  split at h
  · obtain ⟨rfl, rfl⟩ := Prod.mk.inj h
    rfl
  · obtain ⟨rfl, rfl⟩ := Prod.mk.inj h
    rfl
  split at h
  · obtain ⟨rfl, rfl⟩ := Prod.mk.inj h
    rfl
  dsimp only at h
  split at h
  · obtain ⟨rfl, rfl⟩ := Prod.mk.inj h
    rfl
  next ack hack =>
  have hlearn := @gateRefusalError_fst C onion (some ack)
  split at h
  · obtain ⟨rfl, rfl⟩ := Prod.mk.inj h
    rfl
  split at h
  · obtain ⟨rfl, rfl⟩ := Prod.mk.inj h
    exact hlearn
  split at h
  · obtain ⟨rfl, rfl⟩ := Prod.mk.inj h
    exact hlearn
  · obtain ⟨rfl, rfl⟩ := Prod.mk.inj h
    exact hlearn

lemma attempt_fair {C' : Planner} (h : C.attempt dialAttempts wire a onion = (C', tried)) :
    Fair C.onion wire tried := by
  have hwrote : ∀ w, (if a.opened then some wire else none) = some w → w = wire := by
    intro w hw
    split at hw
    · exact (Option.some.inj hw).symm
    · cases hw
  unfold Planner.attempt at h
  split at h
  · obtain ⟨-, rfl⟩ := Prod.mk.inj h
    exact ⟨by simp, rfl, rfl, by simp [Verdict.isAccepted]⟩
  · obtain ⟨-, rfl⟩ := Prod.mk.inj h
    exact ⟨by simp, rfl, rfl, by simp [Verdict.isAccepted]⟩
  split at h
  · obtain ⟨-, rfl⟩ := Prod.mk.inj h
    exact ⟨by simp, rfl, rfl, by simp [Verdict.isAccepted]⟩
  dsimp only at h
  split at h
  · obtain ⟨-, rfl⟩ := Prod.mk.inj h
    exact ⟨hwrote, rfl, rfl, by simp [Verdict.isAccepted]⟩
  next ack hack =>
  split at h
  · next hok =>
    obtain ⟨-, rfl⟩ := Prod.mk.inj h
    -- a socket that was closed before the write gives no acknowledgement
    have hopened : a.opened = true := by
      by_contra hclosed
      obtain ⟨message, hframe⟩ := a.closed (Bool.not_eq_true _ ▸ hclosed)
      rw [hframe] at hack
      cases hack
    exact ⟨hwrote, rfl, rfl, fun _ => ⟨rfl, if_pos hopened, hok⟩⟩
  split at h
  · obtain ⟨-, rfl⟩ := Prod.mk.inj h
    refine ⟨hwrote, rfl, ?_, by simp [Verdict.isAccepted]⟩
    simp
  split at h
  · obtain ⟨-, rfl⟩ := Prod.mk.inj h
    exact ⟨hwrote, rfl, rfl, by simp [Verdict.isAccepted]⟩
  · obtain ⟨-, rfl⟩ := Prod.mk.inj h
    refine ⟨hwrote, rfl, ?_, by simp [Verdict.isAccepted]⟩
    simp

end Attempt

/-! ### What a gateway told -/

section Told

variable {T B : Type} [DecidableEq T] {dialAttempts : ℕ} {s s' : Calls T B} {e : ConnectEvent T B}
  {tr : List (ConnectEvent T B)} {t : T}

/-- What is known of a gateway after one more event. -/
def GatewayCaps.hear (onion : List Char) (caps : GatewayCaps) : ConnectEvent T B → GatewayCaps
  | .attempted _ asked tried =>
    if dropOnion asked = onion ∧ onion ≠ [] then tried.learned.elim caps caps.merge else caps
  | _ => caps

/-- All that a gateway told by its refusals. -/
def told (tr : List (ConnectEvent T B)) (onion : List Char) : GatewayCaps :=
  tr.foldl (GatewayCaps.hear onion) .unknown

omit [DecidableEq T] in
lemma told_snoc (onion : List Char) : told (tr ++ [e]) onion = (told tr onion).hear onion e := by
  unfold told
  rw [List.foldl_append]
  rfl

/-- The client knows of each gateway what it told. -/
def Heard (tr : List (ConnectEvent T B)) (s : Calls T B) : Prop :=
  ∀ onion, (s.planner.gatewayCapsByOnion.get onion).getD .unknown = told tr onion

lemma get_learn {C : Planner} {asked onion : List Char} {learned : CapabilityRefusal} :
    ((C.learn asked learned).gatewayCapsByOnion.get onion).getD .unknown =
      if dropOnion asked = onion ∧ onion ≠ [] then ((C.gatewayCapsByOnion.get onion).getD .unknown).merge learned
      else (C.gatewayCapsByOnion.get onion).getD .unknown := by
  by_cases hempty : dropOnion asked = []
  · have hsame : C.learn asked learned = C := by
      unfold Planner.learn
      exact if_pos hempty
    have hnot : ¬ (dropOnion asked = onion ∧ onion ≠ []) := fun h => h.2 (h.1 ▸ hempty)
    rw [hsame, if_neg hnot]
  · rw [Planner.learn_map hempty]
    by_cases hone : dropOnion asked = onion
    · subst hone
      rw [if_pos ⟨rfl, hempty⟩, OrderedMap.get_set_self]
      rfl
    · rw [if_neg fun h => hone h.1, OrderedMap.get_set_of_ne (Ne.symm hone)]

lemma Heard.step (h : Heard tr s) (hst : ConnectStep dialAttempts s e s') : Heard (tr ++ [e]) s' := by
  intro onion
  rw [told_snoc, ← h onion]
  cases hst with
  | planned _ _ => rfl
  | unplanned _ _ => rfl
  | exhausted _ _ => rfl
  | built _ => rfl
  | unproved _ => rfl
  | unreached _ => rfl
  | @attempted t wire asked onions lastErr a C tried hcall hattempt =>
    obtain rfl := attempt_learned hattempt
    simp only [GatewayCaps.hear]
    cases tried.learned with
    | none => simp
    | some learned => exact get_learn

end Told

/-! ### One call -/

section OneCall

variable {T B : Type} [DecidableEq T] {dialAttempts : ℕ} {s s' : Calls T B} {e : ConnectEvent T B}
  {tr : List (ConnectEvent T B)} {t : T}

def ConnectEvent.thread : ConnectEvent T B → T
  | .planned t _ _ | .failed t _ | .built t _ | .attempted t _ _ => t

/-- The plans of a call, with the slots taken for them. -/
def plansOf (tr : List (ConnectEvent T B)) (t : T) : List (Plan × (ℕ × ℕ)) :=
  tr.filterMap fun
    | .planned t' plan slot => if t' = t then some (plan, slot) else none
    | _ => none

def wiresOf (tr : List (ConnectEvent T B)) (t : T) : List (Wire B) :=
  tr.filterMap fun
    | .built t' wire => if t' = t then some wire else none
    | _ => none

def attemptsOf (tr : List (ConnectEvent T B)) (t : T) : List (List Char × Tried (Wire B)) :=
  tr.filterMap fun
    | .attempted t' onion tried => if t' = t then some (onion, tried) else none
    | _ => none

lemma plansOf_snoc : plansOf (tr ++ [e]) t = plansOf tr t ++ plansOf [e] t := List.filterMap_append

lemma wiresOf_snoc : wiresOf (tr ++ [e]) t = wiresOf tr t ++ wiresOf [e] t := List.filterMap_append

lemma attemptsOf_snoc : attemptsOf (tr ++ [e]) t = attemptsOf tr t ++ attemptsOf [e] t := List.filterMap_append

lemma of_other (h : e.thread ≠ t) : plansOf [e] t = [] ∧ wiresOf [e] t = [] ∧ attemptsOf [e] t = [] := by
  cases e with
  | planned t' plan slot => simp [plansOf, wiresOf, attemptsOf, show t' ≠ t from h]
  | failed t' message => simp [plansOf, wiresOf, attemptsOf]
  | built t' wire => simp [plansOf, wiresOf, attemptsOf, show t' ≠ t from h]
  | attempted t' onion tried => simp [plansOf, wiresOf, attemptsOf, show t' ≠ t from h]

/-- The one plan of a call, which heeds what the gateways told before it, and the one slot. -/
structure Planned (tr : List (ConnectEvent T B)) (t : T) (plan : Plan) (slot : ℕ × ℕ) : Prop where
  once : plansOf tr t = [(plan, slot)]
  heeds : ∃ before after, tr = before ++ .planned t plan slot :: after ∧
    ∀ cand ∈ plan.cands, Supports (told before (dropOnion cand.onion)) plan.version plan.artifact

/-- The course of a call that has its wire: the attempts so far, and the gateways that are left. -/
structure Course (pinned : Option (List Char)) (tr : List (ConnectEvent T B)) (t : T) (plan : Plan) (slot : ℕ × ℕ)
    (wire : Wire B) (rest : List (List Char)) : Prop where
  planned : Planned tr t plan slot
  built : wiresOf tr t = [wire]
  profile : wire.version = plan.version ∧ wire.slot = slot
  order : (attemptsOf tr t).map Prod.fst ++ rest = plan.cands.map Candidate.onion
  goesOn : ∀ x ∈ (attemptsOf tr t).dropLast, x.2.verdict.goesOn = true
  fair : ∀ x ∈ attemptsOf tr t, Fair pinned wire x.2

/-- What the trace says of a call, by where the call is. -/
def Follows (pinned : Option (List Char)) (tr : List (ConnectEvent T B)) (t : T) : Pc B → Prop
  | .idle => plansOf tr t = [] ∧ wiresOf tr t = [] ∧ attemptsOf tr t = []
  | .proving plan slot => Planned tr t plan slot ∧ wiresOf tr t = [] ∧ attemptsOf tr t = []
  | .dialing wire rest _ => ∃ plan slot, Course pinned tr t plan slot wire rest ∧
    ∀ x ∈ attemptsOf tr t, x.2.verdict.goesOn = true
  | .done => attemptsOf tr t = [] ∨ ∃ plan slot wire rest, Course pinned tr t plan slot wire rest

variable {pinned : Option (List Char)} {plan : Plan} {slot : ℕ × ℕ} {wire : Wire B} {rest : List (List Char)}

lemma Planned.snoc (h : Planned tr t plan slot) (hnone : plansOf [e] t = []) : Planned (tr ++ [e]) t plan slot := by
  obtain ⟨before, after, rfl, hheeds⟩ := h.heeds
  refine ⟨?_, before, after ++ [e], by simp, hheeds⟩
  rw [plansOf_snoc, h.once, hnone]
  rfl

lemma Course.snoc (h : Course pinned tr t plan slot wire rest)
    (hnone : plansOf [e] t = [] ∧ wiresOf [e] t = [] ∧ attemptsOf [e] t = []) :
    Course pinned (tr ++ [e]) t plan slot wire rest := by
  obtain ⟨hplans, hwires, hattempts⟩ := hnone
  have heq : attemptsOf (tr ++ [e]) t = attemptsOf tr t := by
    rw [attemptsOf_snoc, hattempts, List.append_nil]
  refine ⟨h.planned.snoc hplans, ?_, h.profile, heq ▸ h.order, heq ▸ h.goesOn, heq ▸ h.fair⟩
  rw [wiresOf_snoc, hwires, List.append_nil]
  exact h.built

/-- A step of another call changes nothing of this one. -/
lemma Follows.snoc {pc : Pc B} (h : Follows pinned tr t pc)
    (hnone : plansOf [e] t = [] ∧ wiresOf [e] t = [] ∧ attemptsOf [e] t = []) : Follows pinned (tr ++ [e]) t pc := by
  obtain ⟨hplans, hwires, hattempts⟩ := hnone
  have hwiresEq : wiresOf (tr ++ [e]) t = wiresOf tr t := by rw [wiresOf_snoc, hwires, List.append_nil]
  have hattemptsEq : attemptsOf (tr ++ [e]) t = attemptsOf tr t := by rw [attemptsOf_snoc, hattempts, List.append_nil]
  cases pc with
  | idle =>
    obtain ⟨hp, hw, ha⟩ := h
    refine ⟨?_, hwiresEq.trans hw, hattemptsEq.trans ha⟩
    rw [plansOf_snoc, hp, hplans]
    rfl
  | proving plan slot =>
    obtain ⟨hp, hw, ha⟩ := h
    exact ⟨hp.snoc hplans, hwiresEq.trans hw, hattemptsEq.trans ha⟩
  | dialing wire rest lastErr =>
    obtain ⟨plan, slot, hc, hall⟩ := h
    exact ⟨plan, slot, hc.snoc ⟨hplans, hwires, hattempts⟩, hattemptsEq ▸ hall⟩
  | done =>
    rcases h with hnil | ⟨plan, slot, wire, rest, hc⟩
    · exact .inl (hattemptsEq.trans hnil)
    · exact .inr ⟨plan, slot, wire, rest, hc.snoc ⟨hplans, hwires, hattempts⟩⟩

/-- One more attempt. -/
lemma Course.attempted {onion : List Char} {tried : Tried (Wire B)} (h : Course pinned tr t plan slot wire (onion :: rest))
    (hall : ∀ x ∈ attemptsOf tr t, x.2.verdict.goesOn = true) (hfair : Fair pinned wire tried) :
    Course pinned (tr ++ [.attempted t onion tried]) t plan slot wire rest := by
  have hone : attemptsOf [ConnectEvent.attempted t onion tried] t = [(onion, tried)] := by simp [attemptsOf]
  have heq : attemptsOf (tr ++ [.attempted t onion tried]) t = attemptsOf tr t ++ [(onion, tried)] := by
    rw [attemptsOf_snoc, hone]
  refine ⟨h.planned.snoc rfl, ?_, h.profile, ?_, ?_, ?_⟩
  · rw [wiresOf_snoc, h.built]
    rfl
  · rw [heq, List.map_append, List.append_assoc]
    exact h.order
  · intro x hx
    rw [heq, List.dropLast_concat] at hx
    exact hall x hx
  · intro x hx
    rw [heq] at hx
    rcases List.mem_append.mp hx with hx | hx
    · exact h.fair x hx
    · obtain rfl := List.mem_singleton.mp hx
      exact hfair

omit [DecidableEq T] in
/-- The plan of a client that heard its gateways heeds them. -/
lemma Heard.heeds (h : Heard tr s) {cands : List Candidate} (hplan : s.planner.planEnvelope cands = .ok plan) :
    ∀ cand ∈ plan.cands, Supports (told tr (dropOnion cand.onion)) plan.version plan.artifact := by
  intro cand hcand
  obtain ⟨-, hcands⟩ := Planner.planEnvelope_ok_iff.mp hplan
  rw [hcands] at hcand
  have hsup := eligible_iff.mp (List.mem_filter.mp hcand).2
  rw [← h]
  constructor
  · intro range hrange
    refine hsup.proto range ?_
    simp only [Planner.knownGatewayCaps]
    rw [Option.mem_def] at hrange
    rw [hrange]
    rfl
  · intro artifacts hartifacts
    refine hsup.artifacts artifacts ?_
    simp only [Planner.knownGatewayCaps]
    rw [Option.mem_def] at hartifacts
    rw [hartifacts]
    rfl

lemma learn_onion {C : Planner} {onion : List Char} {learned : CapabilityRefusal} :
    (C.learn onion learned).onion = C.onion := by
  unfold Planner.learn
  dsimp only
  split
  · rfl
  · split
    · cases learned <;> rfl
    · rfl

lemma ConnectStep.onion_eq (hst : ConnectStep dialAttempts s e s') : s'.planner.onion = s.planner.onion := by
  cases hst with
  | attempted _ hattempt =>
    obtain rfl := attempt_learned hattempt
    dsimp only
    cases Tried.learned _ with
    | none => rfl
    | some learned => exact learn_onion
  | _ => rfl

/-- One step keeps every call on its course. -/
lemma Follows.step (h : ∀ t, Follows s.planner.onion tr t (s.calls t)) (hheard : Heard tr s)
    (hst : ConnectStep dialAttempts s e s') (t : T) : Follows s'.planner.onion (tr ++ [e]) t (s'.calls t) := by
  rw [hst.onion_eq]
  by_cases ht : e.thread = t
  · subst ht
    cases hst with
    | @planned t cands plan slot hcall hplan =>
      have hidle := h t
      rw [hcall] at hidle
      obtain ⟨hplans, hwires, hattempts⟩ := hidle
      simp only [ConnectEvent.thread, Function.update_self]
      refine ⟨⟨?_, tr, [], rfl, hheard.heeds hplan⟩, ?_, ?_⟩
      · rw [plansOf_snoc, hplans]
        simp [plansOf]
      · rw [wiresOf_snoc, hwires]
        rfl
      · rw [attemptsOf_snoc, hattempts]
        rfl
    | @unplanned t cands refused hcall _ =>
      have hidle := h t
      rw [hcall] at hidle
      simp only [ConnectEvent.thread, Function.update_self]
      refine .inl ?_
      rw [attemptsOf_snoc, hidle.2.2]
      rfl
    | @exhausted t cands plan message hcall _ =>
      have hidle := h t
      rw [hcall] at hidle
      simp only [ConnectEvent.thread, Function.update_self]
      refine .inl ?_
      rw [attemptsOf_snoc, hidle.2.2]
      rfl
    | @built t plan slot used body hcall =>
      have hproving := h t
      rw [hcall] at hproving
      obtain ⟨hplanned, hwires, hattempts⟩ := hproving
      simp only [ConnectEvent.thread, Function.update_self]
      have hnone : attemptsOf (tr ++ [.built t ⟨plan.version, used.getD plan.artifact, slot, body⟩]) t = [] := by
        rw [attemptsOf_snoc, hattempts]
        rfl
      refine ⟨plan, slot, ⟨hplanned.snoc rfl, ?_, ⟨rfl, rfl⟩, ?_, ?_, ?_⟩, ?_⟩
      · rw [wiresOf_snoc, hwires]
        simp [wiresOf]
      · rw [hnone]
        rfl
      · simp [hnone]
      · simp [hnone]
      · simp [hnone]
    | @unproved t plan slot message hcall =>
      have hproving := h t
      rw [hcall] at hproving
      simp only [ConnectEvent.thread, Function.update_self]
      refine .inl ?_
      rw [attemptsOf_snoc, hproving.2.2]
      rfl
    | @attempted t wire onion onions lastErr a C tried hcall hattempt =>
      have hdialing := h t
      rw [hcall] at hdialing
      obtain ⟨plan, slot, hcourse, hall⟩ := hdialing
      have hnext := hcourse.attempted hall (attempt_fair hattempt)
      simp only [ConnectEvent.thread, Function.update_self]
      split
      · next hgoes =>
        refine ⟨plan, slot, hnext, fun x hx => ?_⟩
        rw [attemptsOf_snoc] at hx
        rcases List.mem_append.mp hx with hx | hx
        · exact hall x hx
        · have hx' : x = (onion, tried) := by simpa [attemptsOf] using hx
          rw [hx']
          exact hgoes
      · exact .inr ⟨plan, slot, wire, onions, hnext⟩
    | @unreached t wire lastErr hcall =>
      have hdialing := h t
      rw [hcall] at hdialing
      obtain ⟨plan, slot, hcourse, -⟩ := hdialing
      simp only [ConnectEvent.thread, Function.update_self]
      exact .inr ⟨plan, slot, wire, [], hcourse.snoc ⟨rfl, rfl, rfl⟩⟩
  · have hsame : s'.calls t = s.calls t := by
      cases hst <;> exact Function.update_of_ne (Ne.symm ht) _ _
    rw [hsame]
    exact (h t).snoc (of_other ht)

end OneCall

/-! ### Every call -/

section Runs

variable {T B : Type} [DecidableEq T]

/-- A client that has heard nothing yet. -/
def Calls.start (C : Planner) : Calls T B := ⟨{ C with gatewayCapsByOnion := .empty }, fun _ => .idle⟩

/-- **Every call keeps its course.** However calls interleave and whatever the gateways and the network do: a call that
reaches a gateway made one plan, took one slot and built one wire; it shows this wire, and nothing else, to the gateways
of its plan in their order, and to no further one after one that accepted it or refused it for good; each gateway was
planned for by all that it had told any call before; and no socket is left but the one that was accepted, no report is
made but of what is evidence. -/
theorem connect_keeps_course (C : Planner) (dialAttempts : ℕ) {tr : List (ConnectEvent T B)} {s : Calls T B}
    (hrun : Run (ConnectStep dialAttempts) (.start C) tr s) {t : T} (hattempted : attemptsOf tr t ≠ []) :
    ∃ plan slot wire rest, Course C.onion tr t plan slot wire rest := by
  have hinv : s.planner.onion = C.onion ∧ Heard tr s ∧ ∀ t, Follows C.onion tr t (s.calls t) := by
    refine hrun.invariant (I := fun tr s => s.planner.onion = C.onion ∧ Heard tr s ∧
      ∀ t, Follows C.onion tr t (s.calls t)) ⟨rfl, fun onion => rfl, fun t => show Follows C.onion [] t .idle from ⟨rfl, rfl, rfl⟩⟩ ?_
    rintro tr s e s' _ ⟨honion, hheard, hfollows⟩ hst
    refine ⟨hst.onion_eq.trans honion, hheard.step hst, fun t => ?_⟩
    have hnext := Follows.step (fun t => honion.symm ▸ hfollows t) hheard hst t
    rwa [hst.onion_eq, honion] at hnext
  have hfollows := hinv.2.2 t
  cases hcall : s.calls t with
  | idle =>
    rw [hcall] at hfollows
    exact absurd hfollows.2.2 hattempted
  | proving plan slot =>
    rw [hcall] at hfollows
    exact absurd hfollows.2.2 hattempted
  | dialing wire rest lastErr =>
    rw [hcall] at hfollows
    obtain ⟨plan, slot, hcourse, -⟩ := hfollows
    exact ⟨plan, slot, wire, rest, hcourse⟩
  | done =>
    rw [hcall] at hfollows
    exact hfollows.resolve_left hattempted

/-! ### A gateway that is down -/

/-- A client that speaks version 4 and proves with one artifact. -/
def sampleClient : Planner where
  onion := none
  clientRange := ⟨4, 4, by decide, le_rfl⟩
  artifacts := some ["rln-0123456789abcdef"]
  clientArtifactIds := []
  gatewayRange := none
  gatewayArtifacts := none
  gatewayCapsByOnion := .empty

def sampleCandidates : List Candidate := [⟨"a".toList, none, none⟩, ⟨"b".toList, none, none⟩]

def samplePlan : Plan := ⟨4, "rln-0123456789abcdef", sampleCandidates⟩

/-- The network answers no connection. -/
def downAttempt : Attempt := ⟨fun _ => .error "refused", .ok (), false, .error "closed", fun _ => ⟨_, rfl⟩⟩

/-- The gateway accepts the envelope. -/
def upAttempt : Attempt :=
  ⟨fun _ => .ok (), .ok (), true, .ok (some (.obj [("ok", .bool true)])), fun h => absurd h (by simp)⟩

/-- The second gateway gets the wire that the first one did not answer to. -/
theorem connect_keeps_course_failover : ∃ (tr : List (ConnectEvent Unit Unit)) (s : Calls Unit Unit)
    (plan : Plan) (slot : ℕ × ℕ) (wire : Wire Unit) (rest : List (List Char)),
    Run (ConnectStep 1) (.start sampleClient) tr s ∧ (attemptsOf tr ()).map Prod.fst = ["a".toList, "b".toList] ∧
    Course sampleClient.onion tr () plan slot wire rest := by
  have hplan : (Calls.start (T := Unit) (B := Unit) sampleClient).planner.planEnvelope sampleCandidates =
      .ok samplePlan := by rfl
  have h₁ := Run.single (@ConnectStep.planned Unit Unit _ 1 _ () _ _ (7, 0) rfl hplan)
  have h₂ := h₁.snoc (@ConnectStep.built Unit Unit _ 1 _ () samplePlan (7, 0) none () rfl)
  have h₃ := h₂.snoc (@ConnectStep.attempted Unit Unit _ 1 _ () _ _ _ _ downAttempt _ _ rfl rfl)
  have h₄ := h₃.snoc (@ConnectStep.attempted Unit Unit _ 1 _ () _ _ _ _ upAttempt _ _ rfl rfl)
  obtain ⟨plan, slot, wire, rest, hcourse⟩ := connect_keeps_course sampleClient 1 h₄ (t := ()) (by simp [attemptsOf])
  exact ⟨_, _, plan, slot, wire, rest, h₄, rfl, hcourse⟩

end Runs

end ShadeTree.Client
