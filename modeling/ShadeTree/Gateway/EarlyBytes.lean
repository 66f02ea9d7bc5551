import Mathlib.Data.List.TakeWhile
import ShadeTree.Gateway.HandlerBalance

/-!
# The bytes after the envelope

What follows the newline in the chunk that ends the envelope is kept until the tunnel is established and goes to
the destination first; the chunks that come later are piped after it.  A chunk in between comes while the client
socket flows without a listener, and is lost: an open tunnel has passed on all the client sent exactly if there
was none.
-/

namespace ShadeTree.Gateway

open ShadeTree.Lib

/-! ### What came and what went -/

def Input.bytes : Input → List UInt8
  | .chunk bytes => bytes
  | _ => []

def Input.connects : Input → Bool
  | .connected _ _ => true
  | _ => false

def Effect.bytes : Effect → List UInt8
  | .forward bytes => bytes
  | _ => []

/-- All bytes the client sent. -/
def bytesIn (h : List (Input × List Effect)) : List UInt8 := h.flatMap fun e => e.1.bytes

/-- The bytes after the envelope. -/
def payloadIn (h : List (Input × List Effect)) : List UInt8 := (bytesIn h).drop ((bytesIn h).idxOf 10 + 1)

/-- What came after the chunk with the newline of the envelope. -/
def afterEnvelope (h : List (Input × List Effect)) : List (Input × List Effect) :=
  (h.dropWhile fun e => 10 ∉ e.1.bytes).tail

/-- The bytes of the chunks after that one, up to the connection to the destination. -/
def earlyIn (h : List (Input × List Effect)) : List UInt8 :=
  bytesIn ((afterEnvelope h).takeWhile fun e => !e.1.connects)

/-- The bytes passed on to the destination. -/
def forwardedIn (h : List (Input × List Effect)) : List UInt8 := (effectsIn h).flatMap Effect.bytes

section Append

variable {h : List (Input × List Effect)} {e : Input × List Effect}

lemma bytesIn_snoc : bytesIn (h ++ [e]) = bytesIn h ++ e.1.bytes := by simp [bytesIn]

lemma forwardedIn_snoc : forwardedIn (h ++ [e]) = forwardedIn h ++ e.2.flatMap Effect.bytes := by
  rw [forwardedIn, effectsIn_snoc, List.flatMap_append, forwardedIn]

lemma payloadIn_snoc (hnl : 10 ∈ bytesIn h) : payloadIn (h ++ [e]) = payloadIn h ++ e.1.bytes := by
  have hlt := List.idxOf_lt_length_of_mem hnl
  rw [payloadIn, bytesIn_snoc, List.idxOf_append_of_mem hnl, List.drop_append_of_le_length (by omega), payloadIn]

lemma exists_newline (hnl : 10 ∈ bytesIn h) : ∃ e ∈ h, 10 ∈ e.1.bytes := by
  simpa [bytesIn] using hnl

lemma afterEnvelope_snoc (hnl : 10 ∈ bytesIn h) : afterEnvelope (h ++ [e]) = afterEnvelope h ++ [e] := by
  obtain ⟨e', he', hnl'⟩ := exists_newline hnl
  have hne : h.dropWhile (fun e => decide (10 ∉ e.1.bytes)) ≠ [] := by
    intro hnil
    have := List.dropWhile_eq_nil_iff.mp hnil e' he'
    simp [hnl'] at this
  unfold afterEnvelope
  rw [List.dropWhile_append, if_neg (by simpa using hne), List.tail_append_of_ne_nil hne]

/-- The chunk with the newline is the last one. -/
lemma afterEnvelope_newline (hno : 10 ∉ bytesIn h) : afterEnvelope (h ++ [e]) = [] := by
  have hnil : h.dropWhile (fun e => decide (10 ∉ e.1.bytes)) = [] := by
    refine List.dropWhile_eq_nil_iff.mpr fun e' he' => decide_eq_true fun hmem => hno ?_
    simpa [bytesIn] using ⟨e'.1, ⟨e'.2, he'⟩, hmem⟩
  unfold afterEnvelope
  rw [List.dropWhile_append, hnil]
  simp only [List.isEmpty_nil, if_true]
  by_cases he : 10 ∈ e.1.bytes <;> simp [he]

/-- Before the connection, whatever comes is early. -/
lemma earlyIn_snoc (hnl : 10 ∈ bytesIn h) (hwait : ∀ e ∈ afterEnvelope h, e.1.connects = false) :
    earlyIn (h ++ [e]) = earlyIn h ++ e.1.bytes := by
  have hall : (afterEnvelope h).takeWhile (fun e => !e.1.connects) = afterEnvelope h :=
    List.takeWhile_eq_self_iff.mpr fun e he => by simp [hwait e he]
  rw [earlyIn, afterEnvelope_snoc hnl, List.takeWhile_append, hall, if_pos rfl, earlyIn, hall]
  cases hc : e.1.connects with
  | false => simp [hc, bytesIn]
  | true =>
    have hno : e.1.bytes = [] := by
      cases hi : e.1 <;> simp [Input.connects, Input.bytes, hi] at hc ⊢
    simp [hc, hno]

/-- After the connection, nothing is. -/
lemma earlyIn_connected (hnl : 10 ∈ bytesIn h) (hconn : ∃ e ∈ afterEnvelope h, e.1.connects = true) :
    earlyIn (h ++ [e]) = earlyIn h := by
  obtain ⟨e', he', hc⟩ := hconn
  have hne : ((afterEnvelope h).takeWhile fun e => !e.1.connects).length ≠ (afterEnvelope h).length := by
    intro hlen
    have hself := (List.takeWhile_prefix (p := fun e : Input × List Effect => !e.1.connects)).eq_of_length hlen
    have := List.takeWhile_eq_self_iff.mp hself e' he'
    simp [hc] at this
  rw [earlyIn, afterEnvelope_snoc hnl, List.takeWhile_append, if_neg hne, earlyIn]

end Append

/-! ### What is kept of them -/

/-- Up to the connection the handler keeps the rest of the last chunk, and loses what comes after it. -/
structure Gap {E : Type} (C : HandlerConfig E) (h : List (Input × List Effect)) (host : String) (port : ℕ)
    (rest : List UInt8) : Prop where
  newline : 10 ∈ bytesIn h
  requested : C.requested (bytesIn h) = some (host, port)
  short : (rest.length : ℤ) ≤ MAX_SAFE_INTEGER
  payload : payloadIn h = rest ++ earlyIn h
  waiting : ∀ e ∈ afterEnvelope h, e.1.connects = false
  unsent : forwardedIn h = []

/-- An established tunnel passes on the rest and what is piped, up to the limit of the payload. -/
structure Flowing {E : Type} (C : HandlerConfig E) (h : List (Input × List Effect)) (host : String) (t : Tunnel) :
    Prop where
  newline : 10 ∈ bytesIn h
  requested : C.requested (bytesIn h) = some (host, t.port)
  connected : ∃ e ∈ afterEnvelope h, e.1.connects = true
  flow : t.relaying = true → t.payloadLimitScheduled = false → t.piped = true ∧
    (∀ bytes ∈ t.queue, (bytes.length : ℤ) ≤ MAX_SAFE_INTEGER) ∧
    ∃ piped, payloadIn h = t.rest ++ earlyIn h ++ piped ∧ forwardedIn h ++ t.queue.flatten = t.rest ++ piped

def Fed {E : Type} (C : HandlerConfig E) (h : List (Input × List Effect)) (destroyed : Bool) : Stage → Prop
  | .reading buf => bytesIn h = buf ∧ 10 ∉ buf ∧ forwardedIn h = []
  | .verifying host port rest | .admitting _ host port rest | .resolving _ host port rest => Gap C h host port rest
  | .tunnel t => ∃ host, if t.established then Flowing C h host t
      else destroyed = true ∨ (Gap C h host t.port t.rest ∧ t.queue = [] ∧ t.piped = false)
  | .returned => True

section Step

variable {E : Type} {C : HandlerConfig E} {h : List (Input × List Effect)} {e : Input × List Effect} {host : String}
  {port : ℕ} {rest : List UInt8} {t t' : Tunnel} {w w' : Shared} {x x' : Conn} {input : Input} {effects : List Effect}

lemma requested_append {buf bytes : List UInt8} (hnl : 10 ∈ buf) :
    C.requested (buf ++ bytes) = C.requested buf := by
  have hlt := List.idxOf_lt_length_of_mem hnl
  unfold HandlerConfig.requested
  rw [List.idxOf_append_of_mem hnl, List.take_append_of_le_length (by omega)]

/-- An input other than a connection, without effect on the bytes passed on. -/
lemma Gap.snoc (hg : Gap C h host port rest) (hc : e.1.connects = false) (hf : e.2.flatMap Effect.bytes = []) :
    Gap C (h ++ [e]) host port rest where
  newline := by
    rw [bytesIn_snoc]
    exact List.mem_append_left _ hg.newline
  requested := by rw [bytesIn_snoc, requested_append hg.newline, hg.requested]
  short := hg.short
  payload := by rw [payloadIn_snoc hg.newline, earlyIn_snoc hg.newline hg.waiting, hg.payload, List.append_assoc]
  waiting e' he' := by
    rw [afterEnvelope_snoc hg.newline, List.mem_append, List.mem_singleton] at he'
    rcases he' with he' | rfl
    · exact hg.waiting e' he'
    · exact hc
  unsent := by rw [forwardedIn_snoc, hg.unsent, hf, List.append_nil]

/-- The chunk with the newline. -/
lemma Gap.start {bytes : List UInt8} (hno : 10 ∉ bytesIn h) (hnl : 10 ∈ bytesIn h ++ e.1.bytes)
    (hlen : (e.1.bytes.length : ℤ) ≤ MAX_SAFE_INTEGER) (hreq : C.requested (bytesIn h ++ e.1.bytes) = some (host, port))
    (hsent : forwardedIn h = []) (hf : e.2.flatMap Effect.bytes = [])
    (hrest : bytes = (bytesIn h ++ e.1.bytes).drop ((bytesIn h ++ e.1.bytes).idxOf 10 + 1)) :
    Gap C (h ++ [e]) host port bytes where
  newline := by rw [bytesIn_snoc]; exact hnl
  requested := by rw [bytesIn_snoc]; exact hreq
  short := by
    rw [hrest, List.idxOf_append_of_notMem hno, List.length_drop, List.length_append]
    omega
  payload := by
    rw [payloadIn, bytesIn_snoc, earlyIn, afterEnvelope_newline hno, hrest]
    simp [bytesIn]
  waiting e' he' := by
    rw [afterEnvelope_newline hno] at he'
    cases he'
  unsent := by rw [forwardedIn_snoc, hsent, hf, List.append_nil]

/-- An input without bytes, without effect on those passed on or on the queue. -/
lemma Flowing.snoc (hfl : Flowing C h host t) (hb : e.1.bytes = []) (hf : e.2.flatMap Effect.bytes = [])
    (hport : t'.port = t.port) (hrest : t'.rest = t.rest) (hpiped : t'.piped = t.piped)
    (hrelay : t'.relaying = true → t.relaying = true ∧ t'.queue = t.queue)
    (hlimit : t'.payloadLimitScheduled = false → t.payloadLimitScheduled = false) : Flowing C (h ++ [e]) host t' where
  newline := by
    rw [bytesIn_snoc]
    exact List.mem_append_left _ hfl.newline
  requested := by rw [bytesIn_snoc, requested_append hfl.newline, hport, hfl.requested]
  connected := by
    obtain ⟨e', he', hc⟩ := hfl.connected
    exact ⟨e', by rw [afterEnvelope_snoc hfl.newline]; exact List.mem_append_left _ he', hc⟩
  flow hr hl := by
    obtain ⟨hr', hqueue⟩ := hrelay hr
    obtain ⟨hp, hshort, piped, hpay, hsent⟩ := hfl.flow hr' (hlimit hl)
    refine ⟨hpiped ▸ hp, hqueue ▸ hshort, piped, ?_, ?_⟩
    · rw [payloadIn_snoc hfl.newline, earlyIn_connected hfl.newline hfl.connected, hb, hrest, hpay, List.append_nil]
    · rw [forwardedIn_snoc, hf, List.append_nil, hqueue, hrest, hsent]

/-- The tunnel after an input that leaves the relay as it is. -/
structure Tunnel.Alike (t t' : Tunnel) : Prop where
  port : t'.port = t.port
  rest : t'.rest = t.rest
  established : t'.established = t.established
  piped : t'.piped = t.piped
  relay : t'.relaying = true → t.relaying = true ∧ t'.queue = t.queue
  queue : t.queue = [] → t'.queue = []
  limit : t'.payloadLimitScheduled = false → t.payloadLimitScheduled = false

lemma Tunnel.Alike.refl : t.Alike t := ⟨rfl, rfl, rfl, rfl, fun h => ⟨h, rfl⟩, id, id⟩

lemma Tunnel.Alike.trans {t'' : Tunnel} (h : t.Alike t') (h' : t'.Alike t'') : t.Alike t'' where
  port := h'.port.trans h.port
  rest := h'.rest.trans h.rest
  established := h'.established.trans h.established
  piped := h'.piped.trans h.piped
  relay hr := ⟨(h.relay (h'.relay hr).1).1, (h'.relay hr).2.trans (h.relay (h'.relay hr).1).2⟩
  queue hq := h'.queue (h.queue hq)
  limit hl := h.limit (h'.limit hl)

lemma Tunnel.alike_destroySocket (i : ℕ) : t.Alike (t.destroySocket i) := by
  unfold Tunnel.destroySocket
  split
  · exact .refl
  · exact ⟨rfl, rfl, rfl, rfl, fun h => ⟨h, rfl⟩, id, id⟩

lemma Tunnel.alike_destroyUpstream : t.Alike t.destroyUpstream := by
  unfold Tunnel.destroyUpstream
  split
  · exact .refl
  · exact Tunnel.alike_destroySocket _

lemma Tunnel.alike_close : t.Alike t.close := by
  have ha : t.Alike { t with tunnelOpened := false, relaying := false, queue := [] } :=
    ⟨rfl, rfl, rfl, rfl, (fun h => Bool.noConfusion h), fun _ => rfl, id⟩
  exact ha.trans Tunnel.alike_destroyUpstream

/-- A tunnel that stays alike. -/
lemma Fed.alike {destroyed destroyed' : Bool} (hfed : Fed C h destroyed (.tunnel t)) (ha : t.Alike t')
    (hd : destroyed = true → destroyed' = true) (hb : e.1.bytes = [])
    (hc : t.established = false → e.1.connects = true → destroyed' = true) (hf : e.2.flatMap Effect.bytes = []) :
    Fed C (h ++ [e]) destroyed' (.tunnel t') := by
  obtain ⟨host, hfed⟩ := hfed
  refine ⟨host, ?_⟩
  rw [ha.established]
  split at hfed
  · next he =>
    rw [if_pos he]
    exact hfed.snoc hb hf ha.port ha.rest ha.piped ha.relay ha.limit
  · next he =>
    rw [if_neg he, ha.port, ha.rest]
    rcases hfed with hdown | ⟨hg, hq, hp⟩
    · exact .inl (hd hdown)
    · cases hconn : e.1.connects with
      | true => exact .inl (hc (by simpa using he) hconn)
      | false => exact .inr ⟨hg.snoc hconn hf, ha.queue hq, ha.piped.trans hp⟩

/-- The next candidate, or the end: nothing is passed on. -/
lemma Conn.dialNext_alike (now : ℤ) : ∃ t', (x.dialNext t now).1.stage = .tunnel t' ∧ t.Alike t' ∧
    (x.destroyed = true → (x.dialNext t now).1.destroyed = true) ∧ (x.dialNext t now).2.flatMap Effect.bytes = [] := by
  unfold Conn.dialNext
  split
  · exact ⟨t, rfl, .refl, fun _ => rfl, rfl⟩
  · split
    · exact ⟨t, rfl, .refl, fun _ => rfl, rfl⟩
    · exact ⟨_, rfl, ⟨rfl, rfl, rfl, rfl, fun h => ⟨h, rfl⟩, id, id⟩, id, rfl⟩

/-- Below the limit the transform passes on all of a chunk. -/
lemma Tunnel.transform_all {now : ℤ} {bytes : List UInt8} (hlen : (bytes.length : ℤ) ≤ MAX_SAFE_INTEGER)
    (hl : (t.transform C w now bytes).2.1.payloadLimitScheduled = false) :
    t.payloadLimitScheduled = false ∧ (t.transform C w now bytes).2.2.flatMap Effect.bytes = bytes := by
  obtain ⟨b, r, htake⟩ := PayloadBudget.take_safe C.budget now w.budget t.slot
    (⟨Int.natCast_nonneg _, hlen⟩ : 0 ≤ (bytes.length : ℤ) ∧ (bytes.length : ℤ) ≤ MAX_SAFE_INTEGER)
  simp only [Tunnel.transform, htake, Bool.or_eq_false_iff] at hl ⊢
  have hall := PayloadBudget.take_all htake hl.2
  rw [Int.toNat_natCast] at hall
  refine ⟨hl.1, ?_⟩
  rw [hall, List.take_length]
  split
  · simp [Effect.bytes]
  · next hz =>
    have hnil : bytes = [] := List.length_eq_zero_iff.mp (by omega)
    simp [hnil]

/-- The tunnel is established: the rest goes first. -/
lemma Gap.established {i : ℕ} {now : ℤ} (hg : Gap C h host t.port t.rest) (hqueue : t.queue = []) :
    Flowing C (h ++ [(.connected i now, (t.establish C w i now).2.2)]) host (t.establish C w i now).2.1 := by
  obtain ⟨piped, limit, heq⟩ := Tunnel.establish_eq C t w i now
  have hflow : (t.establish C w i now).2.1.payloadLimitScheduled = false →
      (t.establish C w i now).2.1.piped = true ∧ (t.establish C w i now).2.2.flatMap Effect.bytes = t.rest := by
    simp only [Tunnel.establish]
    split
    · next hnil => exact fun _ => ⟨rfl, by simp [Effect.bytes, hnil]⟩
    · intro hl
      simp only at hl
      obtain ⟨-, hall⟩ := Tunnel.transform_all (t := { t with
        sockets := Function.update t.sockets i .connected, established := true, tunnelOpened := true, relaying := true })
        hg.short hl
      refine ⟨by simp only [hl]; rfl, ?_⟩
      simp only [List.flatMap_append, hall]
      simp [Effect.bytes]
  refine ⟨?_, ?_, ⟨(.connected i now, (t.establish C w i now).2.2), ?_, rfl⟩, fun _ hl => ?_⟩
  · rw [bytesIn_snoc]
    exact List.mem_append_left _ hg.newline
  · rw [bytesIn_snoc, requested_append hg.newline, hg.requested, heq]
  · rw [afterEnvelope_snoc hg.newline]
    exact List.mem_append_right _ List.mem_cons_self
  · obtain ⟨hp, hb⟩ := hflow hl
    have hq : (t.establish C w i now).2.1.queue = [] := by rw [heq]; exact hqueue
    have hr : (t.establish C w i now).2.1.rest = t.rest := by rw [heq]
    refine ⟨hp, by simp [hq], [], ?_, ?_⟩
    · rw [payloadIn_snoc hg.newline, earlyIn_snoc hg.newline hg.waiting, hr, hg.payload]
      simp [Input.bytes]
    · rw [forwardedIn_snoc, hg.unsent, hb, hq, hr]
      simp

lemma Flowing.chunk {bytes : List UInt8} (hfl : Flowing C h host t) (hlen : (bytes.length : ℤ) ≤ MAX_SAFE_INTEGER) :
    Flowing C (h ++ [(.chunk bytes, [])]) host { t with queue := t.queue ++ [bytes] } where
  newline := by
    rw [bytesIn_snoc]
    exact List.mem_append_left _ hfl.newline
  requested := by rw [bytesIn_snoc, requested_append hfl.newline, hfl.requested]
  connected := by
    obtain ⟨e', he', hc⟩ := hfl.connected
    exact ⟨e', by rw [afterEnvelope_snoc hfl.newline]; exact List.mem_append_left _ he', hc⟩
  flow hr hl := by
    obtain ⟨hp, hshort, piped, hpay, hsent⟩ := hfl.flow hr hl
    refine ⟨hp, fun b hb => ?_, piped ++ bytes, ?_, ?_⟩
    · rcases List.mem_append.mp hb with hb | hb
      · exact hshort b hb
      · rw [List.mem_singleton.mp hb]
        exact hlen
    · rw [payloadIn_snoc hfl.newline, earlyIn_connected hfl.newline hfl.connected, hpay, ← List.append_assoc]
      rfl
    · rw [forwardedIn_snoc, List.flatMap_nil, List.append_nil, List.flatten_append, ← List.append_assoc, hsent,
        List.append_assoc]
      simp

/-- The first chunk of the queue is passed on. -/
lemma Flowing.relay {bytes : List UInt8} {queue : List (List UInt8)} {now : ℤ} (hfl : Flowing C h host t)
    (hq : t.queue = bytes :: queue) (hrel : t.relaying = true) :
    Flowing C (h ++ [(.relay now, ({ t with queue := queue }.transform C w now bytes).2.2)]) host
      ({ t with queue := queue }.transform C w now bytes).2.1 := by
  obtain ⟨b, heq⟩ := Tunnel.transform_eq C { t with queue := queue } w now bytes
  refine ⟨?_, ?_, ?_, fun _ hl => ?_⟩
  · rw [bytesIn_snoc]
    exact List.mem_append_left _ hfl.newline
  · rw [bytesIn_snoc, requested_append hfl.newline, hfl.requested, heq]
  · obtain ⟨e', he', hc⟩ := hfl.connected
    exact ⟨e', by rw [afterEnvelope_snoc hfl.newline]; exact List.mem_append_left _ he', hc⟩
  · have hlen : t.payloadLimitScheduled = false → (bytes.length : ℤ) ≤ MAX_SAFE_INTEGER := by
      intro hl'
      exact (hfl.flow hrel hl').2.1 bytes (hq ▸ List.mem_cons_self)
    have hl' : t.payloadLimitScheduled = false := by
      unfold Tunnel.transform at hl
      split at hl
      · exact hl
      · exact (Bool.or_eq_false_iff.mp hl).1
    obtain ⟨-, hall⟩ := Tunnel.transform_all (t := { t with queue := queue }) (hlen hl') hl
    obtain ⟨hp, hshort, piped, hpay, hsent⟩ := hfl.flow hrel hl'
    have hqueue : ({ t with queue := queue }.transform C w now bytes).2.1.queue = queue := by rw [heq]
    have hrest : ({ t with queue := queue }.transform C w now bytes).2.1.rest = t.rest := by rw [heq]
    have hpiped : ({ t with queue := queue }.transform C w now bytes).2.1.piped = true := by rw [heq]; exact hp
    rw [hq] at hshort hsent
    rw [hqueue, hrest]
    refine ⟨hpiped, fun b hb => hshort b (List.mem_cons_of_mem _ hb), piped, ?_, ?_⟩
    · rw [payloadIn_snoc hfl.newline, earlyIn_connected hfl.newline hfl.connected, hpay]
      simp [Input.bytes]
    · rw [forwardedIn_snoc, hall]
      simpa using hsent

/-- What an input does to the bytes. -/
lemma Fed.react {n : ℕ} (hfed : Fed C h x.destroyed x.stage) (hok : StageOk n x.closed x.stage)
    (hr : x.Reacts C w input w' x' effects) : Fed C (h ++ [(input, effects)]) x'.destroyed x'.stage := by
  have hat : ∀ {st}, x.stage = st → Fed C h x.destroyed st := fun hs => hs ▸ hfed
  have hidle : ∀ {e : Input × List Effect} {t t' : Tunnel} {destroyed' : Bool}, x.stage = .tunnel t → t.Alike t' →
      (x.destroyed = true → destroyed' = true) → e.1.bytes = [] → e.1.connects = false →
      e.2.flatMap Effect.bytes = [] → Fed C (h ++ [e]) destroyed' (.tunnel t') :=
    fun hs ha hd hb hc hf => (hat hs).alike ha hd hb (fun _ hconn => by rw [hc] at hconn; cases hconn) hf
  have hsame : ∀ {e : Input × List Effect} {st : Stage} {destroyed' : Bool}, x.stage = st →
      (x.destroyed = true → destroyed' = true) → e.1.bytes = [] → e.1.connects = false →
      e.2.flatMap Effect.bytes = [] → Fed C (h ++ [e]) destroyed' st := by
    intro e st destroyed' hs hd hb hc hf
    cases st with
    | reading buf =>
      obtain ⟨hbuf, hno, hsent⟩ := hat hs
      exact ⟨by rw [bytesIn_snoc, hb, List.append_nil, hbuf], hno, by rw [forwardedIn_snoc, hsent, hf]; rfl⟩
    | verifying host port rest => exact Gap.snoc (hat hs) hc hf
    | admitting slot host port rest => exact Gap.snoc (hat hs) hc hf
    | resolving slot host port rest => exact Gap.snoc (hat hs) hc hf
    | tunnel t => exact hidle hs .refl hd hb hc hf
    | returned => trivial
  cases hr with
  | drop hd => trivial
  | @readChunk buf bytes hlen _ hs =>
    obtain ⟨hbuf, hno, hsent⟩ := hat hs
    rcases x.readChunk_cases C (buf ++ bytes) with ⟨reason, err, h⟩ | ⟨hnl, h⟩ | ⟨hnl, host, port, hreq, h⟩
    · rw [h]
      trivial
    · rw [h]
      exact ⟨by rw [bytesIn_snoc, hbuf]; rfl, hnl, by rw [forwardedIn_snoc, hsent]; rfl⟩
    · rw [h]
      subst hbuf
      exact Gap.start hno hnl hlen hreq hsent rfl rfl
  | verified hs => exact Gap.snoc (hat hs) rfl rfl
  | @afterAdmit slot host port rest now hs =>
    have hg : Gap C h host port rest := hat hs
    unfold Conn.afterAdmit
    split
    · trivial
    split
    · trivial
    simp only
    split
    · trivial
    · exact hg.snoc rfl rfl
  | lookedLate now hs _ _ => trivial
  | @looked slot host port rest answers candidates now hs _ _ =>
    have hg : Gap C h host port rest := hat hs
    obtain ⟨t', ht', ha, hd, hb⟩ := Conn.dialNext_alike (x := x) (t := _) now
    unfold Conn.openTunnel
    rw [ht']
    refine ⟨host, ?_⟩
    rw [ha.established, if_neg nofun, ha.port, ha.rest]
    exact .inr ⟨hg.snoc rfl hb, ha.queue rfl, ha.piped⟩
  | chunkLost bytes hlive hl =>
    cases hs : x.stage with
    | reading buf =>
      rw [hs] at hl
      cases hl
    | verifying host port rest => exact Gap.snoc (hat hs) rfl rfl
    | admitting slot host port rest => exact Gap.snoc (hat hs) rfl rfl
    | resolving slot host port rest => exact Gap.snoc (hat hs) rfl rfl
    | returned => trivial
    | tunnel t =>
      rw [hs] at hl
      obtain ⟨host, hfed⟩ := hat hs
      refine ⟨host, ?_⟩
      split at hfed
      · next he =>
        rw [if_pos he]
        have hnl := hfed.newline
        refine ⟨by rw [bytesIn_snoc]; exact List.mem_append_left _ hnl,
          by rw [bytesIn_snoc, requested_append hnl, hfed.requested], ?_, fun hr hlim => ?_⟩
        · obtain ⟨e', he', hc⟩ := hfed.connected
          exact ⟨e', by rw [afterEnvelope_snoc hnl]; exact List.mem_append_left _ he', hc⟩
        · have hp := (hfed.flow hr hlim).1
          simp [Stage.listens, hp, hr] at hl
      · next he =>
        rw [if_neg he]
        rcases hfed with hdown | ⟨hg, hq, hp⟩
        · exact .inl hdown
        · exact .inr ⟨hg.snoc rfl rfl, hq, hp⟩
  | ended _ _ => exact hsame rfl id rfl rfl rfl
  | clientDown => exact hsame rfl (fun _ => rfl) rfl rfl rfl
  | clientError _ _ _ => exact hsame rfl (fun _ => rfl) rfl rfl rfl
  | clientErrorTunnel _ _ hs => exact hidle hs Tunnel.alike_destroyUpstream (fun _ => rfl) rfl rfl rfl
  | clientClosed now _ _ =>
    have hf : (x.held.map Effect.release).flatMap Effect.bytes = [] := by
      rw [List.flatMap_map]
      exact List.flatMap_eq_nil_iff.mpr fun r _ => rfl
    simp only [Conn.close]
    cases hs : x.stage with
    | tunnel t => exact hidle hs Tunnel.alike_close id rfl rfl hf
    | reading buf => exact hsame hs id rfl rfl hf
    | verifying host port rest => exact hsame hs id rfl rfl hf
    | admitting slot host port rest => exact hsame hs id rfl rfl hf
    | resolving slot host port rest => exact hsame hs id rfl rfl hf
    | returned => trivial
  | @chunk t bytes hlen hlive hs hp hrel =>
    obtain ⟨host, hfed⟩ := hat hs
    refine ⟨host, ?_⟩
    split at hfed
    · next he =>
      rw [if_pos he]
      exact hfed.chunk hlen
    · rcases hfed with hdown | ⟨-, -, hno⟩
      · rw [hlive] at hdown
        cases hdown
      · rw [hp] at hno
        cases hno
  | @connectedLate t i now hs hi hlate =>
    rw [hs] at hok
    have hup := TunnelOk.only hok i (.inl hi)
    exact (hat hs).alike (Tunnel.alike_destroySocket i) id rfl
      (fun _ _ => hlate.resolve_left fun hne => hne hup) rfl
  | @connected t i now hs hi hup hlive =>
    rw [hs] at hok
    obtain ⟨piped, limit, heq⟩ := Tunnel.establish_eq C t w i now
    obtain ⟨host, hfed⟩ := hat hs
    refine ⟨host, ?_⟩
    split at hfed
    · next he => exact absurd hi (TunnelOk.linked hok he i)
    · rcases hfed with hdown | ⟨hg, hq, -⟩
      · rw [hlive] at hdown
        cases hdown
      · rw [if_pos (by rw [heq])]
        exact hg.established hq
  | failing hs _ => exact hidle hs ⟨rfl, rfl, rfl, rfl, fun h => ⟨h, rfl⟩, id, id⟩ id rfl rfl rfl
  | @upstreamError t i code now hs _ =>
    have hgone : t.Alike { t with sockets := Function.update t.sockets i .gone } :=
      ⟨rfl, rfl, rfl, rfl, fun h => ⟨h, rfl⟩, id, id⟩
    unfold Conn.upstreamError
    simp only
    split
    · exact hidle hs hgone id rfl rfl rfl
    split
    · exact hidle hs ⟨rfl, rfl, rfl, rfl, fun h => ⟨h, rfl⟩, id, id⟩ (fun _ => rfl) rfl rfl rfl
    split
    · have hnext : t.Alike { t with sockets := Function.update t.sockets i .gone, upstream := none } :=
        ⟨rfl, rfl, rfl, rfl, fun h => ⟨h, rfl⟩, id, id⟩
      obtain ⟨t', ht', ha, hd, hb⟩ := Conn.dialNext_alike (x := x)
        (t := { t with sockets := Function.update t.sockets i .gone, upstream := none }) now
      rw [ht']
      exact hidle hs (hnext.trans ha) hd rfl rfl hb
    · exact hidle hs hgone (fun _ => rfl) rfl rfl rfl
  | @upstreamTimeout t i now later _ hs _ =>
    unfold Conn.upstreamTimeout
    split
    · exact hsame rfl id rfl rfl rfl
    split
    · have hidled : t.Alike { t with gatewayCloseReason := some "idle-timeout" } :=
        ⟨rfl, rfl, rfl, rfl, fun h => ⟨h, rfl⟩, id, id⟩
      exact hidle hs (hidled.trans Tunnel.alike_destroyUpstream) (fun _ => rfl) rfl rfl rfl
    split
    · have hnext : t.Alike { t.destroyUpstream with upstream := none } :=
        Tunnel.alike_destroyUpstream.trans ⟨rfl, rfl, rfl, rfl, fun h => ⟨h, rfl⟩, id, id⟩
      obtain ⟨t', ht', ha, hd, hb⟩ := Conn.dialNext_alike (x := x)
        (t := { t.destroyUpstream with upstream := none }) later
      rw [ht']
      exact hidle hs (hnext.trans ha) hd rfl rfl hb
    · exact hidle hs Tunnel.alike_destroyUpstream (fun _ => rfl) rfl rfl rfl
  | upstreamClosed hs _ => exact hidle hs ⟨rfl, rfl, rfl, rfl, fun h => ⟨h, rfl⟩, id, id⟩ id rfl rfl rfl
  | @relay t bytes queue now hs hq hrel =>
    obtain ⟨host, hfed⟩ := hat hs
    refine ⟨host, ?_⟩
    obtain ⟨b, heq⟩ := Tunnel.transform_eq C { t with queue := queue } w now bytes
    split at hfed
    · next he =>
      rw [if_pos (by rw [heq]; exact he)]
      exact hfed.relay hq hrel
    · next he =>
      rw [if_neg (by rw [heq]; exact he)]
      rcases hfed with hdown | ⟨-, hnil, -⟩
      · exact .inl hdown
      · rw [hq] at hnil
        cases hnil
  | fromDestination now hs _ _ =>
    exact hidle hs ⟨rfl, rfl, rfl, rfl, fun h => ⟨h, rfl⟩, id, fun hl => (Bool.or_eq_false_iff.mp hl).1⟩ id rfl rfl rfl
  | payloadLimit hs _ => exact hidle hs ⟨rfl, rfl, rfl, rfl, fun h => ⟨h, rfl⟩, id, id⟩ id rfl rfl rfl

end Step

section Run

variable {E : Type} {C : HandlerConfig E} {tr : List HandlerEvent} {s : Handlers} {x : Conn} {t : Tunnel}

lemma HandlerStep.fed (hrun : Run (HandlerStep C) .start tr s) (c : ℕ) (hx : s.conns c = some x) :
    Fed C (historyOf tr c) x.destroyed x.stage := by
  refine ((HandlerStep.every_conn (I := fun h x => Settled h x ∧ Fed C h x.destroyed x.stage)
    ⟨.fresh, rfl, by simp, rfl⟩ ⟨.refused, trivial⟩ ?_ hrun c).2 x hx).2
  rintro h w x input w' x' effects ⟨hs, hfed⟩ hr
  exact ⟨hs.react hr, hfed.react hs.stage hr⟩

/-- What an open tunnel has passed on, and has still to: the rest of the first chunk and what came after the
connection. -/
lemma HandlerStep.flow (hrun : Run (HandlerStep C) .start tr s) (c : ℕ) (hx : s.conns c = some x)
    (ht : x.stage = .tunnel t) (hest : t.established = true) (hrelay : t.relaying = true)
    (hlimit : t.payloadLimitScheduled = false) :
    ∃ piped, payloadIn (historyOf tr c) = t.rest ++ earlyIn (historyOf tr c) ++ piped ∧
      forwardedIn (historyOf tr c) ++ t.queue.flatten = t.rest ++ piped := by
  have hfed := HandlerStep.fed hrun c hx
  rw [ht] at hfed
  obtain ⟨host, hfed⟩ := hfed
  rw [if_pos hest] at hfed
  exact (hfed.flow hrelay hlimit).2.2

/-- **The payload is passed on.** In every order of inputs, an open tunnel below the limit of its payload has
passed on, or has queued, exactly the bytes after the envelope, once and in order, if and only if no bytes came
between the chunk that ends the envelope and the connection to the destination. -/
theorem payload_forwarded (hrun : Run (HandlerStep C) .start tr s) (c : ℕ) (hx : s.conns c = some x)
    (ht : x.stage = .tunnel t) (hest : t.established = true) (hrelay : t.relaying = true)
    (hlimit : t.payloadLimitScheduled = false) :
    forwardedIn (historyOf tr c) ++ t.queue.flatten = payloadIn (historyOf tr c) ↔
      earlyIn (historyOf tr c) = [] := by
  obtain ⟨piped, hpay, hsent⟩ := HandlerStep.flow hrun c hx ht hest hrelay hlimit
  rw [hsent, hpay]
  constructor
  · intro heq
    have hlen := congrArg List.length heq
    simp only [List.length_append] at hlen
    exact List.length_eq_zero_iff.mp (by omega)
  · intro hnil
    rw [hnil, List.append_nil]

end Run

/-- A chunk after the connection. -/
lemma plainRelayed (early : List UInt8) : ∃ s, Run (HandlerStep plainConfig) .start
      (plainTrace early ++ [.at 0 (.chunk [66]) []] ++ [.at 0 (.relay 0) [.forward [66]]]) s ∧
    s.conns 0 = some ⟨.tunnel plainTunnel, false, false, true, some "7", some plainSlot⟩ := by
  obtain ⟨s, hrun, hx⟩ := plainRun early
  have hlen : (([66] : List UInt8).length : ℤ) ≤ MAX_SAFE_INTEGER := by decide
  obtain ⟨s₁, h₁, hx₁, hw₁⟩ := HandlerStep.next hrun hx rfl (.chunk hlen rfl rfl rfl rfl)
  obtain ⟨s₂, h₂, hx₂, hw₂⟩ := HandlerStep.next h₁ hx₁ rfl (.relay 0 rfl rfl rfl)
  exact ⟨s₂, h₂, hx₂⟩

/-- Nothing came in between. -/
theorem payload_forwarded_plain : ∃ tr s x t, Run (HandlerStep plainConfig) .start tr s ∧ s.conns 0 = some x ∧
    x.stage = .tunnel t ∧ payloadIn (historyOf tr 0) = [66] ∧
    forwardedIn (historyOf tr 0) ++ t.queue.flatten = payloadIn (historyOf tr 0) := by
  obtain ⟨s, hrun, hx⟩ := plainRelayed []
  refine ⟨_, s, _, plainTunnel, hrun, hx, rfl, by decide, ?_⟩
  exact (payload_forwarded hrun 0 hx rfl rfl rfl rfl).mpr (by decide)

/-- A byte that comes while the proof is verified is lost, and the next one goes to the destination. -/
theorem early_byte_lost : ∃ tr s x t, Run (HandlerStep plainConfig) .start tr s ∧ s.conns 0 = some x ∧
    x.stage = .tunnel t ∧ t.established = true ∧ t.relaying = true ∧ t.payloadLimitScheduled = false ∧ t.queue = [] ∧
    payloadIn (historyOf tr 0) = [65, 66] ∧ forwardedIn (historyOf tr 0) = [66] := by
  obtain ⟨s, hrun, hx⟩ := plainRelayed [65]
  exact ⟨_, s, _, plainTunnel, hrun, hx, rfl, rfl, rfl, rfl, rfl, by decide, by decide⟩

end ShadeTree.Gateway
