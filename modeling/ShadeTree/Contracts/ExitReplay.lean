import ShadeTree.Contracts.Lifecycle
import ShadeTree.Contracts.RateCommitment

/-!
# Exit authorizations across registrations

The proof of an exit or a withdrawal is bound to `keccak256` of the action, the commitment and, for a
withdrawal, the recipient.  Nothing in it names the registration, and the proof is public once it was used,
so it authorizes the same action again for every later registration of the commitment at that tier
(`exit_replay_goes_through`).  As long as no commitment is registered again after an exit of it, every
authorization serves one registration.
-/

namespace ShadeTree.Contracts.Staked

open Function (update)
open ShadeTree.Lib

/-- The action a call asks to authorize, with the bytes that authorize it. -/
def authorization : Call → Option (AuthContext × List ℕ)
  | .initiateExit c π => some (.exit c, π)
  | .withdraw c r π _ => some (.withdraw c r, π)
  | .register .. | .slash .. => none

/-- Soundness of the proofs: bytes that verify for a context were made for it, and bytes are made for one
context. -/
def ProofSound (X : Externals) (madeFor : List ℕ → Option AuthContext) : Prop :=
  ∀ c limit context π, X.verify c limit context π = true → madeFor π = some context

open Classical in
/-- The verifier is sound when the Groth16 check accepts bytes only for the signals they were made for, and
no two actions share the field element their context is reduced to. -/
lemma exists_proofSound {groth16 : List ℕ → ℕ → ℕ → Bool} {keccak : AuthContext → ℕ}
    {commitmentOf : ℕ → ℕ → Option ℕ} {signals : List ℕ → Option (ℕ × ℕ)}
    (hsound : ∀ π idc addr, groth16 ((WithdrawVerifier.words π).take 8) idc addr = true →
      signals π = some (idc, addr))
    (hkeccak : ∀ x y, keccak x % PoseidonT3.F = keccak y % PoseidonT3.F → x = y) :
    ∃ madeFor, ProofSound ⟨WithdrawVerifier.verify groth16 keccak, commitmentOf⟩ madeFor := by
  refine ⟨fun π => if h : ∃ x idc, signals π = some (idc, keccak x % PoseidonT3.F) then some h.choose
    else none, fun c limit context π hv => ?_⟩
  have hs := hsound _ _ _ (WithdrawVerifier.verify_true hv).1
  have h : ∃ x idc, signals π = some (idc, keccak x % PoseidonT3.F) := ⟨context, _, hs⟩
  obtain ⟨idc, hidc⟩ := h.choose_spec
  have heq := Option.some.inj (hidc.symm.trans hs)
  dsimp only
  rw [dif_pos h, hkeccak h.choose context (Prod.mk.inj heq).2]

/-- The bytes that authorized a call did not authorize one before it for another registration of the same
commitment. -/
def Unreplayed (before : List (Call × Option (Entry ℕ))) (x : Call × Option (Entry ℕ)) : Prop :=
  ∀ context π e, authorization x.1 = some (context, π) → x.2 = some e →
    ∀ y ∈ before, ∀ context' e', authorization y.1 = some (context', π) → y.2 = some e' →
      e'.key = e.key → e'.index = e.index

/-- Every call that was authorized used bytes made for exactly its action and recipient. -/
def Bound (madeFor : List ℕ → Option AuthContext) (log : List (Call × Option (Entry ℕ))) : Prop :=
  ∀ x ∈ log, ∀ context π, authorization x.1 = some (context, π) → madeFor π = some context

/-- A registration is not of a commitment for which an exit succeeded. -/
def NotAfterExit (w : World StakedReputationSet Call) : Move Call → Prop
  | .call (.register c _ _) => ∀ e ∈ deeds w.log, e.key = c → e.deed ≠ .exit
  | .call (.initiateExit ..) | .call (.withdraw ..) | .call (.slash ..) | .block _ | .gift _ => True

section Invariant

variable {H : ℕ → ℕ → ℕ} {z : ℕ} {X : Externals} {w w' : World StakedReputationSet Call} {m : Move Call}

/-- The exits in the log of a bonded commitment are of its present registration. -/
def ExitsCurrent (w : World StakedReputationSet Call) : Prop :=
  ∀ c, (w.contract.members c).bond ≠ 0 →
    ∀ e ∈ deeds w.log, e.key = c → e.deed = .exit → e.index = (w.contract.members c).index

/-- Every item of the log was recorded as the contract records it. -/
def Recorded (log : List (Call × Option (Entry ℕ))) : Prop := ∀ x ∈ log, ∃ S b, x.2 = some (entry S b x.1)

lemma entry_deed (S : StakedReputationSet) (b : Block) (c : Call) : (entry S b c).deed = c.deed := by
  cases c <;> rfl

lemma entry_key (S : StakedReputationSet) (b : Block) (c : Call) :
    (entry S b c).key = c.commitment := by
  cases c <;> rfl

lemma mem_deeds {log : List (Call × Option (Entry ℕ))} {x : Call × Option (Entry ℕ)} {e : Entry ℕ}
    (hx : x ∈ log) (he : x.2 = some e) : e ∈ deeds log :=
  List.mem_filterMap.mpr ⟨x, hx, he⟩

/-- A call that does not deposit leaves the index of a member that stays bonded, and bonds nobody. -/
lemma exitsCurrent_of_members (h : ExitsCurrent w) {S' : StakedReputationSet} {e : Entry ℕ}
    {call : Call} {balance : ℕ}
    (hm : ∀ c, (S'.members c).bond ≠ 0 →
      (w.contract.members c).bond ≠ 0 ∧ (S'.members c).index = (w.contract.members c).index)
    (he : e.deed = .exit → e.index = (w.contract.members e.key).index) :
    ExitsCurrent ⟨S', balance, w.block, w.log ++ [(call, some e)]⟩ := by
  intro c hc x hx hkey hdeed
  obtain ⟨hbond, hi⟩ := hm c hc
  dsimp only at hx ⊢
  rw [deeds_snoc] at hx
  rw [hi]
  rcases List.mem_append.mp hx with hold | hnew
  · exact h c hbond x hold hkey hdeed
  · obtain rfl := List.mem_singleton.mp hnew
    rw [he hdeed, hkey]

/-- **The step lemma.** -/
lemma ExitsCurrent.step (h : ExitsCurrent w) (hcond : NotAfterExit w m)
    (hst : World.Step (host H z X) w m w') : ExitsCurrent w' := by
  cases hst with
  | block _ => exact h
  | gift => exact h
  | @call call S' hok _ =>
    obtain ⟨evs, hok⟩ := host_exec hok
    cases call with
    | register c l v =>
      obtain ⟨-, -, hfree, -, rfl, -⟩ := register_ok hok
      intro j hj x hx hkey hdeed
      dsimp only [host] at hj hx ⊢
      rw [deeds_snoc] at hx
      rcases List.mem_append.mp hx with hold | hnew
      · by_cases hjc : j = c
        · -- no exit of the commitment came before its registration
          exact absurd hdeed (hcond x hold (hkey.trans hjc))
        · rw [Function.update_of_ne hjc] at hj ⊢
          exact h j hj x hold hkey hdeed
      · obtain rfl := List.mem_singleton.mp hnew
        cases hdeed
    | initiateExit c π =>
      obtain ⟨hbond, -, -, -, rfl, -⟩ := initiateExit_ok hok
      refine exitsCurrent_of_members h (fun j hj => ?_) fun _ => rfl
      dsimp only at hj ⊢
      by_cases hjc : j = c
      · subst hjc
        rw [Function.update_self]
        exact ⟨hbond, rfl⟩
      · rw [Function.update_of_ne hjc] at hj ⊢
        exact ⟨hj, rfl⟩
    | withdraw c r π paid =>
      obtain ⟨-, -, -, -, -, rfl, -⟩ := withdraw_ok hok
      refine exitsCurrent_of_members h (fun j hj => ?_) fun hd => by cases hd
      dsimp only at hj ⊢
      have hjc : j ≠ c := by
        rintro rfl
        rw [Function.update_self] at hj
        exact hj rfl
      rw [Function.update_of_ne hjc] at hj ⊢
      exact ⟨hj, rfl⟩
    | slash c s l r paid =>
      obtain ⟨-, -, -, -, -, rfl, -⟩ := slash_ok hok
      refine exitsCurrent_of_members h (fun j hj => ?_) fun hd => by cases hd
      dsimp only at hj ⊢
      have hjc : j ≠ c := by
        rintro rfl
        rw [Function.update_self] at hj
        exact hj rfl
      rw [Function.update_of_ne hjc] at hj ⊢
      exact ⟨hj, rfl⟩

lemma Recorded.step (h : Recorded w.log) (hst : World.Step (host H z X) w m w') : Recorded w'.log := by
  cases hst with
  | block _ => exact h
  | gift => exact h
  | @call call S' _ _ =>
    intro x hx
    rcases List.mem_append.mp hx with hold | hnew
    · exact h x hold
    · obtain rfl := List.mem_singleton.mp hnew
      exact ⟨_, _, rfl⟩

/-- An authorized call is about a member that holds a bond, and its bytes verified. -/
lemma authorized_ok {S S' : StakedReputationSet} {b : Block} {call : Call} {evs : List Event}
    {context : AuthContext} {π : List ℕ} (hok : exec H z X S b call = .ok (S', evs))
    (ha : authorization call = some (context, π)) :
    (S.members call.commitment).bond ≠ 0 ∧
      (entry S b call).index = (S.members call.commitment).index ∧
      X.verify call.commitment (S.members call.commitment).limit context π = true := by
  cases call with
  | register c l v => cases ha
  | initiateExit c π' =>
    obtain ⟨hbond, -, hv, -, -, -⟩ := initiateExit_ok hok
    obtain ⟨rfl, rfl⟩ : .exit c = context ∧ π' = π := by simpa [authorization] using ha
    exact ⟨hbond, rfl, hv⟩
  | withdraw c r π' paid =>
    obtain ⟨hbond, -, -, hv, -, -, -⟩ := withdraw_ok hok
    obtain ⟨rfl, rfl⟩ : .withdraw c r = context ∧ π' = π := by simpa [authorization] using ha
    exact ⟨hbond, rfl, hv⟩
  | slash c s l r paid => cases ha

lemma Bound.step {madeFor : List ℕ → Option AuthContext} (hX : ProofSound X madeFor)
    (h : Bound madeFor w.log) (hst : World.Step (host H z X) w m w') : Bound madeFor w'.log := by
  cases hst with
  | block _ => exact h
  | gift => exact h
  | @call call S' hok _ =>
    obtain ⟨evs, hok⟩ := host_exec hok
    intro x hx context π ha
    rcases List.mem_append.mp hx with hold | hnew
    · exact h x hold context π ha
    · obtain rfl := List.mem_singleton.mp hnew
      exact hX _ _ _ _ (authorized_ok hok ha).2.2

/-- The earlier authorizations of a bonded commitment were for its present registration: an exit because
the exits are current, a withdrawal because an exit of the same registration came before it. -/
lemma index_of_authorized {u : ℕ} (hl : BondLedger.Story u (w.ledger (host H z X)))
    (hcur : ExitsCurrent w) (hrec : Recorded w.log) {y : Call × Option (Entry ℕ)} (hy : y ∈ w.log)
    {context : AuthContext} {π : List ℕ} {e : Entry ℕ} (ha : authorization y.1 = some (context, π))
    (he : y.2 = some e) (hbond : (w.contract.members e.key).bond ≠ 0) :
    e.index = (w.contract.members e.key).index := by
  obtain ⟨S, b, hye⟩ := hrec y hy
  have hmem : e ∈ deeds w.log := mem_deeds hy he
  have hdeed : e.deed = y.1.deed := by
    rw [he] at hye
    rw [Option.some.inj hye, entry_deed]
  cases hcall : y.1 with
  | register c l v => rw [hcall] at ha; cases ha
  | slash c s l r paid => rw [hcall] at ha; cases ha
  | initiateExit c π' =>
    rw [hcall] at hdeed
    exact hcur e.key hbond e hmem rfl hdeed
  | withdraw c r π' paid =>
    rw [hcall] at hdeed
    obtain ⟨l₁, l₂, hsplit⟩ := List.append_of_mem hmem
    obtain ⟨x, hx, hxd, hxk, hxi, -⟩ := (hl.lawful l₁ e l₂ hsplit).unbonded hdeed
    have hx' : x ∈ deeds w.log := by rw [hsplit]; exact List.mem_append_left _ hx
    rw [← hxi, ← hxk]
    exact hcur x.key (hxk ▸ hbond) x hx' rfl hxd

lemma unreplayed_step {u : ℕ} (hl : BondLedger.Story u (w.ledger (host H z X)))
    (hcur : ExitsCurrent w) (hrec : Recorded w.log)
    (hc : BondLedger.Chronicle Unreplayed w.log)
    (hst : World.Step (host H z X) w m w') : BondLedger.Chronicle Unreplayed w'.log := by
  cases hst with
  | block _ => exact hc
  | gift => exact hc
  | @call call S' hok _ =>
    obtain ⟨evs, hok⟩ := host_exec hok
    refine hc.snoc fun context π e ha he y hy context' e' ha' he' hkey => ?_
    obtain rfl := Option.some.inj he
    obtain ⟨hbond, hi, -⟩ := authorized_ok hok ha
    rw [entry_key] at hkey
    rw [hi, index_of_authorized hl hcur hrec hy ha' he' (hkey ▸ hbond), hkey]

end Invariant

/-- **One registration.** Bytes are used for exactly the action and the recipient they were made for; and
in every run, also a re-entrant one, that registers no commitment again after an exit of it succeeded, no
authorization serves two registrations. -/
theorem authorization_serves_one_registration (H : ℕ → ℕ → ℕ) (z : ℕ) (X : Externals)
    (madeFor : List ℕ → Option AuthContext) (bond unbonding minUnbonding : ℕ) (limits bonds : List ℕ)
    (S : StakedReputationSet) (balance : ℕ) (b : Block) (hX : ProofSound X madeFor)
    (hctor : constructor H z bond unbonding minUnbonding limits bonds = .ok S) :
    (∀ tr c, Run (World.Reentrant (host H z X)) ⟨World.genesis S balance b, []⟩ tr c →
      ∀ w, w = c.now ∨ w ∈ c.saved → Bound madeFor w.log) ∧
    (∀ tr c, Run (Frames.Step (Restrict (World.Step (host H z X)) NotAfterExit)
        (Move.hands (host H z X).hands)) ⟨World.genesis S balance b, []⟩ tr c →
      ∀ w, w = c.now ∨ w ∈ c.saved → BondLedger.Chronicle Unreplayed w.log) := by
  constructor
  · intro tr c hrun w hw
    refine (World.reaches_of_reentrant hrun hw).invariant (I := fun w => Bound madeFor w.log)
      (fun x hx => nomatch hx) fun t m u ht hst => ht.step hX hst
  · intro tr c hrun w hw
    have hreach : Reaches (Restrict (World.Step (host H z X)) NotAfterExit)
        (World.genesis S balance b) w := by
      obtain ⟨hnow, hsaved⟩ := Frames.committed hrun
      rcases hw with rfl | hw
      · exact hnow
      · exact hsaved w hw
    refine (hreach.invariant (I := fun w => Reaches (World.Step (host H z X)) (World.genesis S balance b) w ∧
      ExitsCurrent w ∧ Recorded w.log ∧ BondLedger.Chronicle Unreplayed w.log) ?_ ?_).2.2.2
    · refine ⟨.refl, fun c _ e he => ?_, fun x hx => ?_, BondLedger.Chronicle.nil⟩
      · cases he
      · cases hx
    · rintro t m u ⟨hr, hcur, hrec, hc⟩ ⟨hcond, hst⟩
      obtain ⟨-, -, hl⟩ := refines.reaches (fresh hctor) hr
      exact ⟨hr.tail hst, hcur.step hcond hst, hrec.step hst, unreplayed_step hl hcur hrec hc hst⟩

/-- **The replay.** Bytes in the log that exited one registration of a commitment exit any other one at the
same tier, whoever submits them. -/
theorem exit_replay_goes_through {H : ℕ → ℕ → ℕ} {z : ℕ} {X : Externals}
    {w : World StakedReputationSet Call} (hs : (w.ledger (host H z X)).Sound) {c : ℕ} {π : List ℕ}
    (hactive : isActive w.contract c = true)
    (hv : X.verify c (limitOf w.contract c) (.exit c) π = true)
    (hover : w.block.timestamp + w.contract.UNBONDING < 2 ^ 256) {e : Entry ℕ}
    (hy : (Call.initiateExit c π, some e) ∈ w.log) (hkey : e.key = c)
    (hindex : e.index ≠ (w.contract.members c).index) :
    ∃ w', World.Step (host H z X) w (.call (.initiateExit c π)) w' ∧
      ¬ BondLedger.Chronicle Unreplayed w'.log := by
  have hact : (w.contract.members c).bond ≠ 0 ∧ (w.contract.members c).exitInitiatedAt = 0 := by
    simpa [isActive] using hactive
  have hcount : w.contract.activeCount ≠ 0 :=
    (hs.activeCount_pos (asBond_eq_some hact.1) (if_pos hact.2)).ne'
  rw [limitOf, if_neg hact.1] at hv
  have hok : ∃ S' evs, initiateExit H z X w.contract w.block c π = .ok (S', evs) := by
    unfold initiateExit
    simp only [hact.1, hact.2, hv, ne_eq, not_true_eq_false, if_false, Bool.not_true,
      Bool.false_eq_true]
    rw [if_neg (by omega)]
    exact ⟨_, _, rfl⟩
  obtain ⟨S', evs, hok⟩ := hok
  refine ⟨_, .call (S := S') ?_ (Nat.zero_le _), fun hch => hindex ?_⟩
  · show ((initiateExit H z X w.contract w.block c π).toOption.map Prod.fst) = some S'
    rw [hok]
    rfl
  · exact hch w.log _ [] rfl (.exit c) π _ rfl rfl _ hy (.exit c) e rfl rfl hkey

/-- The bytes made for an action, in the examples: the action spelled out. -/
def spelledOut : List ℕ → Option AuthContext
  | [0, c] => some (.exit c)
  | [1, c, r] => some (.withdraw c r)
  | _ => none

/-- The verifier that accepts the action spelled out. -/
def spelledOutVerifier : Externals where
  verify := fun _ _ context π => decide (spelledOut π = some context)
  commitmentOf := fun _ _ => none

lemma spelledOut_sound : ProofSound spelledOutVerifier spelledOut :=
  fun _ _ _ _ h => of_decide_eq_true h

/-- The member `7` exits, withdraws to `9` and is registered again: the old bytes force it out, and pay its
new bond to `9`. -/
theorem old_authorization_exits_new_registration :
    ∃ (S : StakedReputationSet) (tr : List (FrameLabel (Move Call)))
      (c : Frames (World StakedReputationSet Call)),
      ProofSound spelledOutVerifier spelledOut ∧
      constructor (fun a b => a + b) 1 5 10 0 [] [] = .ok S ∧
      Run (World.Reentrant (host (fun a b => a + b) 1 spelledOutVerifier))
        ⟨World.genesis S 0 ⟨1, by decide, by decide⟩, []⟩ tr c ∧
      deeds c.now.log = [⟨.deposit, 7, 0, 5, 1⟩, ⟨.exit, 7, 0, 5, 1⟩, ⟨.withdraw, 7, 0, 5, 11⟩,
        ⟨.deposit, 7, 1, 5, 11⟩, ⟨.exit, 7, 1, 5, 11⟩, ⟨.withdraw, 7, 1, 5, 21⟩] ∧
      c.now.log.map (fun x => authorization x.1) = [none, some (.exit 7, [0, 7]),
        some (.withdraw 7 9, [1, 7, 9]), none, some (.exit 7, [0, 7]), some (.withdraw 7 9, [1, 7, 9])] ∧
      ¬ BondLedger.Chronicle Unreplayed c.now.log := by
  let S : StakedReputationSet := ⟨5, 10, Function.update (fun _ => 0) DEFAULT_LIMIT 5, [DEFAULT_LIMIT],
    fun _ => Member.none, 0, 0, Tree.new (fun a b => a + b) 1⟩
  have h₀ : Run (World.Reentrant (host (fun a b => a + b) 1 spelledOutVerifier))
      ⟨World.genesis S 0 ⟨1, by decide, by decide⟩, []⟩ [] _ := .nil
  have h₁ := h₀.snoc (.act (e := Move.call (.register 7 8 5)) (.call rfl (Nat.zero_le _)) id)
  have h₂ := h₁.snoc (.act (e := Move.call (.initiateExit 7 [0, 7])) (.call rfl (Nat.zero_le _)) id)
  have h₃ := h₂.snoc (.act (e := Move.block ⟨11, by decide, by decide⟩) (.block (by decide)) id)
  have h₄ := h₃.snoc (.hand (e := Move.call (Call.withdraw 7 9 [1, 7, 9] true)) (.call rfl (by decide))
    trivial)
  have h₅ := h₄.snoc .ret
  have h₆ := h₅.snoc (.act (e := Move.call (.register 7 8 5)) (.call rfl (Nat.zero_le _)) id)
  have h₇ := h₆.snoc (.act (e := Move.call (.initiateExit 7 [0, 7])) (.call rfl (Nat.zero_le _)) id)
  have h₈ := h₇.snoc (.act (e := Move.block ⟨21, by decide, by decide⟩) (.block (by decide)) id)
  have h₉ := h₈.snoc (.hand (e := Move.call (Call.withdraw 7 9 [1, 7, 9] true)) (.call rfl (by decide))
    trivial)
  refine ⟨S, _, _, spelledOut_sound, rfl, h₉, rfl, rfl, fun hch => ?_⟩
  have h := hch [_, _, _, _] _ [_] rfl (.exit 7) [0, 7] ⟨.exit, 7, 1, 5, 11⟩ rfl rfl
    (.initiateExit 7 [0, 7], some ⟨.exit, 7, 0, 5, 1⟩) (.tail _ (.head _)) (.exit 7) _ rfl rfl rfl
  exact absurd h (by decide)

/-- The member `7` registers, exits and withdraws once. -/
theorem authorization_serves_one_registration_once :
    ∃ w : World StakedReputationSet Call,
      deeds w.log = [⟨.deposit, 7, 0, 5, 1⟩, ⟨.exit, 7, 0, 5, 1⟩, ⟨.withdraw, 7, 0, 5, 11⟩] ∧
      Bound spelledOut w.log ∧ BondLedger.Chronicle Unreplayed w.log := by
  let S : StakedReputationSet := ⟨5, 10, Function.update (fun _ => 0) DEFAULT_LIMIT 5, [DEFAULT_LIMIT],
    fun _ => Member.none, 0, 0, Tree.new (fun a b => a + b) 1⟩
  obtain ⟨hbound, hserves⟩ := authorization_serves_one_registration (fun a b => a + b) 1
    spelledOutVerifier spelledOut 5 10 0 [] [] S 0 ⟨1, by decide, by decide⟩ spelledOut_sound rfl
  have h₀ : Run (Frames.Step (Restrict (World.Step (host (fun a b => a + b) 1 spelledOutVerifier))
      NotAfterExit) (Move.hands (host (fun a b => a + b) 1 spelledOutVerifier).hands))
      ⟨World.genesis S 0 ⟨1, by decide, by decide⟩, []⟩ [] _ := .nil
  have h₁ := h₀.snoc (.act (e := Move.call (Call.register 7 8 5))
    (.of_step (.call rfl (Nat.zero_le _)) fun _ he => nomatch he) id)
  have h₂ := h₁.snoc (.act (e := Move.call (Call.initiateExit 7 [0, 7]))
    (.of_step (.call rfl (Nat.zero_le _)) trivial) id)
  have h₃ := h₂.snoc (.act (e := Move.block ⟨11, by decide, by decide⟩)
    (.of_step (.block (by decide)) trivial) id)
  have h₄ := h₃.snoc (.hand (e := Move.call (Call.withdraw 7 9 [1, 7, 9] true))
    (.of_step (.call rfl (by decide)) trivial) trivial)
  exact ⟨_, rfl, hbound _ _ (h₄.mono fun s l t hst => hst.mono fun _ _ _ h => h.2) _ (.inl rfl),
    hserves _ _ h₄ _ (.inl rfl)⟩

end ShadeTree.Contracts.Staked
