import Mathlib.Data.List.Count
import ShadeTree.Lib.Sums
import ShadeTree.Gateway.Handler

/-!
# What a connection takes and gives back

Four things are taken for a connection: a place in the limiter, one under its nullifier, a hold on the payload
budget and a place among the open tunnels.  Each is taken once at most and given back once, at the latest when
the client socket closes; a tunnel is counted once at most; and no socket to the destination outlives the client
socket.
-/

namespace ShadeTree.Gateway

open ShadeTree.Lib

/-! ### Sockets -/

namespace Tunnel

variable {t : Tunnel} {i j : ℕ}

lemma destroySocket_isOpen : (t.destroySocket i).IsOpen j ↔ j ≠ i ∧ t.IsOpen j := by
  unfold destroySocket
  by_cases hf : t.sockets i = .failing
  · rw [if_pos hf]
    refine ⟨fun h => ⟨?_, h⟩, And.right⟩
    rintro rfl
    simp [IsOpen, hf] at h
  · rw [if_neg hf]
    by_cases hj : j = i
    · subst hj
      simp [IsOpen]
    · simp [IsOpen, hj]

lemma destroyUpstream_isOpen : t.destroyUpstream.IsOpen j ↔ t.upstream ≠ some j ∧ t.IsOpen j := by
  unfold destroyUpstream
  cases hu : t.upstream with
  | none => simp
  | some i =>
    rw [destroySocket_isOpen]
    simp [eq_comm]

/-- A socket that is not gone was not gone before it was destroyed. -/
lemma destroySocket_ne_gone (h : (t.destroySocket i).sockets j ≠ .gone) : t.sockets j ≠ .gone := by
  unfold destroySocket at h
  split at h
  · exact h
  · by_cases hj : j = i
    · subst hj
      simp at h
    · simpa [hj] using h

lemma destroySocket_ne_connecting (h : ∀ j, t.sockets j ≠ .connecting) : ∀ j, (t.destroySocket i).sockets j ≠ .connecting := by
  intro j
  unfold destroySocket
  split
  · exact h j
  · by_cases hj : j = i
    · subst hj
      simp
    · simpa [hj] using h j

@[simp] lemma destroySocket_upstream : (t.destroySocket i).upstream = t.upstream := by
  unfold destroySocket
  split <;> rfl

@[simp] lemma destroySocket_established : (t.destroySocket i).established = t.established := by
  unfold destroySocket
  split <;> rfl

@[simp] lemma destroySocket_tunnelOpened : (t.destroySocket i).tunnelOpened = t.tunnelOpened := by
  unfold destroySocket
  split <;> rfl

@[simp] lemma destroySocket_candidates : (t.destroySocket i).candidates = t.candidates := by
  unfold destroySocket
  split <;> rfl

@[simp] lemma destroyUpstream_upstream : t.destroyUpstream.upstream = t.upstream := by
  unfold destroyUpstream
  split <;> simp

@[simp] lemma destroyUpstream_established : t.destroyUpstream.established = t.established := by
  unfold destroyUpstream
  split <;> simp

@[simp] lemma destroyUpstream_tunnelOpened : t.destroyUpstream.tunnelOpened = t.tunnelOpened := by
  unfold destroyUpstream
  split <;> simp

@[simp] lemma destroyUpstream_candidates : t.destroyUpstream.candidates = t.candidates := by
  unfold destroyUpstream
  split <;> simp

end Tunnel

/-- The effect counts a tunnel. -/
def Effect.counts : Effect → Bool
  | .tunnels _ => true
  | _ => false

/-- How often the counter of tunnels was incremented. -/
def countedIn (h : List (Input × List Effect)) : ℕ := (effectsIn h).countP Effect.counts

lemma countedIn_snoc (h : List (Input × List Effect)) (e : Input × List Effect) :
    countedIn (h ++ [e]) = countedIn h + e.2.countP Effect.counts := by
  rw [countedIn, effectsIn_snoc, List.countP_append, countedIn]

/-- The dial loop after `n` increments of the counter: only the socket of `upstream` is open, none once the client
is closed; one that may still pass or fail was not counted. -/
structure TunnelOk (n : ℕ) (closed : Bool) (t : Tunnel) : Prop where
  one : n ≤ 1
  fresh : t.established = false → ∀ i, t.upstream = some i → t.sockets i ≠ .gone → n = 0
  only : ∀ i, t.IsOpen i → t.upstream = some i
  shut : closed = true → ∀ i, ¬ t.IsOpen i
  linked : t.established = true → ∀ i, t.sockets i ≠ .connecting

def StageOk (n : ℕ) (closed : Bool) : Stage → Prop
  | .tunnel t => TunnelOk n closed t
  | .returned => n ≤ 1
  | _ => n = 0

lemma StageOk.one {n : ℕ} {closed : Bool} {st : Stage} (h : StageOk n closed st) : n ≤ 1 := by
  cases st with
  | tunnel t => exact TunnelOk.one h
  | returned => exact h
  | reading buf => exact le_of_eq_of_le h (by decide)
  | verifying _ _ _ => exact le_of_eq_of_le h (by decide)
  | admitting _ _ _ _ => exact le_of_eq_of_le h (by decide)
  | resolving _ _ _ _ => exact le_of_eq_of_le h (by decide)

namespace TunnelOk

variable {n : ℕ} {closed : Bool} {t t' : Tunnel} {i : ℕ}

/-- Sockets may go from open to failing or gone, and from failing to gone. -/
lemma wane (h : TunnelOk n closed t) (hup : t'.upstream = t.upstream) (hest : t'.established = t.established)
    (hopen : ∀ i, t'.IsOpen i → t.IsOpen i) (hgone : ∀ i, t'.sockets i ≠ .gone → t.sockets i ≠ .gone)
    (hlink : (∀ i, t.sockets i ≠ .connecting) → ∀ i, t'.sockets i ≠ .connecting) : TunnelOk n closed t' where
  one := h.one
  fresh he i hi hne := h.fresh (hest ▸ he) i (hup ▸ hi) (hgone i hne)
  only i hi := hup ▸ h.only i (hopen i hi)
  shut hc i hi := h.shut hc i (hopen i hi)
  linked he := hlink (h.linked (hest ▸ he))

lemma destroySocket (h : TunnelOk n closed t) (i : ℕ) : TunnelOk n closed (t.destroySocket i) :=
  h.wane (by simp) (by simp) (fun _ hj => (Tunnel.destroySocket_isOpen.mp hj).2)
    (fun _ => Tunnel.destroySocket_ne_gone) Tunnel.destroySocket_ne_connecting

lemma destroyUpstream (h : TunnelOk n closed t) : TunnelOk n closed t.destroyUpstream := by
  unfold Tunnel.destroyUpstream
  split
  · exact h
  · exact h.destroySocket _

/-- One socket fails, or is gone. -/
lemma update (h : TunnelOk n closed t) (i : ℕ) {v : SocketState} (hv : v = .failing ∨ v = .gone)
    (hi : v = .failing → t.IsOpen i) : TunnelOk n closed { t with sockets := Function.update t.sockets i v } := by
  refine h.wane rfl rfl (fun j hj => ?_) (fun j hj => ?_) fun hc j => ?_
  · by_cases hji : j = i
    · subst hji
      rcases hv with rfl | rfl <;> simp [Tunnel.IsOpen] at hj
    · simpa [Tunnel.IsOpen, hji] using hj
  · by_cases hji : j = i
    · subst hji
      rcases hv with rfl | rfl
      · rcases hi rfl with ho | ho <;> simp [ho]
      · simp at hj
    · simpa [hji] using hj
  · by_cases hji : j = i
    · subst hji
      rcases hv with rfl | rfl <;> simp
    · simpa [hji] using hc j

end TunnelOk

/-! ### What is not taken nor given back -/

/-- Nothing is held yet under the nullifier. -/
def Stage.early : Stage → Bool
  | .reading _ | .verifying _ _ _ | .admitting _ _ _ _ => true
  | _ => false

/-- The tunnel is still to be established. -/
def Stage.unopened : Stage → Bool
  | .tunnel t => !t.established
  | .returned => false
  | _ => true

/-- An input that leaves what a connection holds as it is. -/
structure Conn.Keeps (x x' : Conn) (effects : List Effect) : Prop where
  closed : x'.closed = x.closed
  destroyed : x.destroyed = true → x'.destroyed = true
  held : x'.held = x.held
  effects : ∀ r, effects.count (.acquire r) = 0 ∧ effects.count (.release r) = 0
  early : x'.stage.early = true → x.stage.early = true
  unopened : x'.stage.unopened = true → x.stage.unopened = true

section Keeps

variable {E : Type} {C : HandlerConfig E} {x : Conn} {t : Tunnel}

/-- A new stage in which the tunnel is open if it was. -/
lemma Conn.Keeps.stage {st : Stage} {destroyed : Bool} {effects : List Effect} (hst : st.opened = x.stage.opened)
    (hearly : st.early = true → x.stage.early = true) (hun : st.unopened = true → x.stage.unopened = true)
    (hd : x.destroyed = true → destroyed = true)
    (he : ∀ r, effects.count (.acquire r) = 0 ∧ effects.count (.release r) = 0) :
    x.Keeps { x with stage := st, destroyed := destroyed } effects where
  closed := rfl
  destroyed := hd
  held := by simp only [Conn.held, hst]
  effects := he
  early := hearly
  unopened := hun

lemma Conn.drop_keeps {reason err : String} (hst : x.stage.opened = false) :
    x.Keeps (x.drop reason err).1 (x.drop reason err).2 :=
  .stage hst.symm nofun nofun (fun _ => rfl) fun r => by simp [Conn.drop]

/-- The tunnel `t` is the stage, as far as it is held, or about to be. -/
structure Tunnel.Continues (x : Conn) (t : Tunnel) : Prop where
  opened : t.tunnelOpened = x.stage.opened
  unopened : t.established = false → x.stage.unopened = true

lemma Tunnel.Continues.refl (hs : x.stage = .tunnel t) : t.Continues x :=
  ⟨by rw [hs]; rfl, fun h => by rw [hs]; simp [Stage.unopened, h]⟩

lemma Tunnel.Continues.keeps (h : t.Continues x) {destroyed : Bool} {effects : List Effect}
    (hd : x.destroyed = true → destroyed = true)
    (he : ∀ r, effects.count (.acquire r) = 0 ∧ effects.count (.release r) = 0) :
    x.Keeps { x with stage := .tunnel t, destroyed := destroyed } effects :=
  .stage h.opened nofun (fun hun => h.unopened (by simpa [Stage.unopened] using hun)) hd he

lemma Conn.dropTunnel_keeps {reason err : String} (h : t.Continues x) :
    x.Keeps (x.dropTunnel t reason err).1 (x.dropTunnel t reason err).2 :=
  h.keeps (fun _ => rfl) fun r => by simp [Conn.dropTunnel]

lemma Conn.dialNext_keeps {now : ℤ} (h : t.Continues x) : x.Keeps (x.dialNext t now).1 (x.dialNext t now).2 := by
  unfold Conn.dialNext
  split
  · exact Conn.dropTunnel_keeps h
  · split
    · exact Conn.dropTunnel_keeps h
    · have hnext : Tunnel.Continues x
          { t with
            candidateIndex := t.candidateIndex + 1
            upstream := some t.candidateIndex
            sockets := Function.update t.sockets t.candidateIndex .connecting } := ⟨h.opened, h.unopened⟩
      exact hnext.keeps id fun r => by simp

lemma Conn.readChunk_keeps {buf buf₀ : List UInt8} (hst : x.stage = .reading buf₀) :
    x.Keeps (x.readChunk C buf).1 (x.readChunk C buf).2 := by
  have hno : x.stage.opened = false := by rw [hst]; rfl
  have hnone : ∀ st : Stage, st.opened = false → x.Keeps { x with stage := st } [] := fun st h =>
    .stage (h.trans hno.symm) (fun _ => by rw [hst]; rfl) (fun _ => by rw [hst]; rfl) id fun r => by simp
  rcases x.readChunk_cases C buf with ⟨reason, err, h⟩ | ⟨-, h⟩ | ⟨-, host, port, -, h⟩
  · rw [h]
    exact Conn.drop_keeps hno
  · rw [h]
    exact hnone _ rfl
  · rw [h]
    exact hnone _ rfl

lemma Conn.upstreamError_keeps {i : ℕ} {code : String} {now : ℤ} (hs : x.stage = .tunnel t) :
    x.Keeps (x.upstreamError t i code now).1 (x.upstreamError t i code now).2 := by
  have h : Tunnel.Continues x { t with sockets := Function.update t.sockets i .gone } :=
    ⟨(Tunnel.Continues.refl hs).opened, (Tunnel.Continues.refl hs).unopened⟩
  unfold Conn.upstreamError
  simp only
  split
  · exact h.keeps id fun r => by simp
  split
  · have herr : Tunnel.Continues x
        { t with
          sockets := Function.update t.sockets i .gone
          gatewayCloseReason := t.gatewayCloseReason.or (some "upstream-error") } := ⟨h.opened, h.unopened⟩
    exact herr.keeps (fun _ => rfl) fun r => by simp
  split
  · exact Conn.dialNext_keeps ⟨h.opened, h.unopened⟩
  · exact Conn.dropTunnel_keeps h

lemma Tunnel.Continues.destroyUpstream (h : t.Continues x) : t.destroyUpstream.Continues x :=
  ⟨by simpa using h.opened, fun he => h.unopened (by simpa using he)⟩

lemma Conn.upstreamTimeout_keeps {i : ℕ} {now later : ℤ} (hs : x.stage = .tunnel t) :
    x.Keeps (x.upstreamTimeout t i now later).1 (x.upstreamTimeout t i now later).2 := by
  have h := Tunnel.Continues.refl hs
  have hdown := h.destroyUpstream
  unfold Conn.upstreamTimeout
  split
  · exact ⟨rfl, id, rfl, fun r => by simp, id, id⟩
  split
  · have hidle : Tunnel.Continues x { t with gatewayCloseReason := some "idle-timeout" } := ⟨h.opened, h.unopened⟩
    exact hidle.destroyUpstream.keeps (fun _ => rfl) fun r => by simp
  split
  · exact Conn.dialNext_keeps ⟨hdown.opened, hdown.unopened⟩
  · exact Conn.dropTunnel_keeps hdown

lemma Conn.Drops.notOpened {input : Input} {reason err : String} (h : x.Drops C input reason err) :
    x.stage.opened = false := by
  cases h with
  | ended _ hs => rw [hs]; rfl
  | envelopeTimeout _ hs => rw [hs]; rfl
  | clientError _ hs => rw [hs]; rfl
  | verifyThrew hs => rw [hs]; rfl
  | verifyRefused hs => rw [hs]; rfl
  | admitThrew _ hs => rw [hs]; rfl
  | admitRefused _ hs => rw [hs]; rfl
  | lookRefused _ hs _ => rw [hs]; rfl

end Keeps

/-! ### The dial loop -/

section Dial

variable {E : Type} {C : HandlerConfig E} {x : Conn} {t : Tunnel} {n : ℕ}

lemma Conn.dropTunnel_ok (reason err : String) (h : TunnelOk 1 x.closed t) (hn : n = 0) :
    StageOk (n + (x.dropTunnel t reason err).2.countP Effect.counts) x.closed (x.dropTunnel t reason err).1.stage := by
  subst hn
  exact h

/-- With no socket open and nothing counted, the next candidate is dialed or the tunnel dropped. -/
lemma Conn.dialNext_ok (now : ℤ) (hest : t.established = false) (hup : t.upstream = none)
    (hopen : ∀ i, ¬ t.IsOpen i) (hclosed : x.closed = false) (hn : n = 0) :
    StageOk (n + (x.dialNext t now).2.countP Effect.counts) x.closed (x.dialNext t now).1.stage := by
  have hdrop : TunnelOk 1 x.closed t := by
    refine ⟨le_refl _, fun _ i hi => ?_, fun i hi => absurd hi (hopen i), fun _ => hopen, fun he => ?_⟩
    · rw [hup] at hi
      cases hi
    · rw [hest] at he
      cases he
  unfold Conn.dialNext
  split
  · exact Conn.dropTunnel_ok _ _ hdrop hn
  · split
    · exact Conn.dropTunnel_ok _ _ hdrop hn
    · subst hn
      refine ⟨Nat.zero_le 1, fun _ _ _ _ => rfl, fun j hj => ?_, fun hc => ?_, fun he => ?_⟩
      · by_cases hji : j = t.candidateIndex
        · rw [hji]
        · have : t.IsOpen j := by simpa [Tunnel.IsOpen, hji] using hj
          exact absurd this (hopen j)
      · rw [hclosed] at hc
        cases hc
      · rw [hest] at he
        cases he

lemma Conn.upstreamError_ok {i : ℕ} (code : String) (now : ℤ) (h : TunnelOk n x.closed t)
    (hf : t.sockets i = .failing) (hclosed : x.closed = true → x.destroyed = true) :
    StageOk (n + (x.upstreamError t i code now).2.countP Effect.counts) x.closed
      (x.upstreamError t i code now).1.stage := by
  have hgone := h.update i (v := .gone) (.inr rfl) nofun
  unfold Conn.upstreamError
  simp only
  split
  · exact hgone
  next hup =>
  rw [not_not] at hup
  split
  · exact hgone.wane rfl rfl (fun _ => id) (fun _ => id) id
  next hest =>
  have hest : t.established = false := by simpa using hest
  have hn : n = 0 := h.fresh hest i hup (by simp [hf])
  split
  · next hnext =>
    have hopen : ∀ j, ¬ Tunnel.IsOpen { t with sockets := Function.update t.sockets i .gone } j := by
      intro j hj
      have hij := hgone.only j hj
      obtain rfl : i = j := Option.some.inj (hup.symm.trans hij)
      simp [Tunnel.IsOpen] at hj
    refine Conn.dialNext_ok now hest rfl hopen ?_ hn
    by_contra hc
    simp [hclosed (by simpa using hc)] at hnext
  · subst hn
    refine Conn.dropTunnel_ok _ _ ⟨le_refl _, fun _ j hj hne => ?_, hgone.only, hgone.shut, hgone.linked⟩ rfl
    obtain rfl : i = j := Option.some.inj (hup.symm.trans hj)
    simp at hne

lemma Conn.upstreamTimeout_ok {i : ℕ} (now later : ℤ) (h : TunnelOk n x.closed t) (hstage : x.stage = .tunnel t)
    (ho : t.IsOpen i) (hclosed : x.closed = true → x.destroyed = true) :
    StageOk (n + (x.upstreamTimeout t i now later).2.countP Effect.counts) x.closed
      (x.upstreamTimeout t i now later).1.stage := by
  have hdown := h.destroyUpstream
  unfold Conn.upstreamTimeout
  split
  · rw [hstage]
    exact h
  next hup =>
  rw [not_not] at hup
  split
  · have hidle : TunnelOk n x.closed { t with gatewayCloseReason := some "idle-timeout" } :=
      h.wane rfl rfl (fun _ => id) (fun _ => id) id
    exact hidle.destroyUpstream
  next hest =>
  have hest : t.established = false := by simpa using hest
  have hne : t.sockets i ≠ .gone := by rcases ho with ho | ho <;> simp [ho]
  have hn : n = 0 := h.fresh hest i hup hne
  have hopen : ∀ j, ¬ t.destroyUpstream.IsOpen j := by
    intro j hj
    obtain ⟨hne, ho'⟩ := Tunnel.destroyUpstream_isOpen.mp hj
    exact hne (h.only j ho')
  split
  · next hnext =>
    refine Conn.dialNext_ok later (by simpa using hest) rfl hopen ?_ hn
    by_contra hc
    simp [hclosed (by simpa using hc)] at hnext
  · subst hn
    refine Conn.dropTunnel_ok _ _ ⟨le_refl _, fun _ j hj hne' => ?_, hdown.only, hdown.shut, hdown.linked⟩ rfl
    rw [Tunnel.destroyUpstream_upstream, hup] at hj
    obtain rfl := Option.some.inj hj
    have hnf : t.sockets i ≠ .failing := by rcases ho with ho | ho <;> simp [ho]
    simp [Tunnel.destroyUpstream, hup, Tunnel.destroySocket, hnf] at hne'

end Dial

/-! ### The relay -/

/-- The effect neither takes nor gives back nor counts nor dials. -/
def Effect.quiet : Effect → Bool
  | .reply _ | .forward _ => true
  | _ => false

section Relay

variable {E : Type} {C : HandlerConfig E} {t : Tunnel} {w : Shared} {i : ℕ} {now : ℤ} {bytes : List UInt8}

/-- The transform leaves all but the limit as it is. -/
lemma Tunnel.transform_eq (C : HandlerConfig E) (t : Tunnel) (w : Shared) (now : ℤ) (bytes : List UInt8) :
    ∃ b, (t.transform C w now bytes).2.1 = { t with payloadLimitScheduled := b } := by
  unfold Tunnel.transform
  split
  · exact ⟨_, rfl⟩
  · exact ⟨_, rfl⟩

lemma Tunnel.transform_quiet : ∀ e ∈ (t.transform C w now bytes).2.2, e.quiet = true := by
  unfold Tunnel.transform
  split
  · simp
  · simp only
    split <;> simp [Effect.quiet]

lemma Tunnel.transform_shared (C : HandlerConfig E) (t : Tunnel) (w : Shared) (now : ℤ) (bytes : List UInt8) :
    (t.transform C w now bytes).1.limiter = w.limiter ∧
    (t.transform C w now bytes).1.activeTunnels = w.activeTunnels ∧
    ∀ k, (t.transform C w now bytes).1.budget.activeOf k = w.budget.activeOf k := by
  unfold Tunnel.transform
  split
  · exact ⟨rfl, rfl, fun _ => rfl⟩
  · next htake => exact ⟨rfl, rfl, fun _ => PayloadBudget.activeOf_take htake⟩

/-- A tunnel that is established. -/
lemma Tunnel.establish_eq (C : HandlerConfig E) (t : Tunnel) (w : Shared) (i : ℕ) (now : ℤ) :
    ∃ piped limit, (t.establish C w i now).2.1 = { t with
      sockets := Function.update t.sockets i .connected
      established := true
      tunnelOpened := true
      relaying := true
      piped := piped
      payloadLimitScheduled := limit } := by
  unfold Tunnel.establish
  simp only
  split
  · exact ⟨_, _, rfl⟩
  · obtain ⟨b, hb⟩ := Tunnel.transform_eq C { t with
      sockets := Function.update t.sockets i .connected, established := true, tunnelOpened := true, relaying := true }
      { w with activeTunnels := w.activeTunnels + 1 } now t.rest
    exact ⟨_, _, by rw [hb]⟩

lemma Tunnel.establish_effects (C : HandlerConfig E) (t : Tunnel) (w : Shared) (i : ℕ) (now : ℤ) :
    ∃ forwarded, (t.establish C w i now).2.2 = [.acquire .tunnel, .tunnels none, .reply none] ++ forwarded ∧ ∀ e ∈ forwarded, e.quiet = true := by
  unfold Tunnel.establish
  simp only
  split
  · exact ⟨[], rfl, by simp⟩
  · exact ⟨_, rfl, Tunnel.transform_quiet⟩

lemma Tunnel.establish_shared (C : HandlerConfig E) (t : Tunnel) (w : Shared) (i : ℕ) (now : ℤ) :
    (t.establish C w i now).1.limiter = w.limiter ∧
    (t.establish C w i now).1.activeTunnels = w.activeTunnels + 1 ∧
    ∀ k, (t.establish C w i now).1.budget.activeOf k = w.budget.activeOf k := by
  unfold Tunnel.establish
  simp only
  split
  · exact ⟨rfl, rfl, fun _ => rfl⟩
  · exact Tunnel.transform_shared _ _ _ _ _

lemma countP_quiet {es : List Effect} (h : ∀ e ∈ es, e.quiet = true) : es.countP Effect.counts = 0 := by
  rw [List.countP_eq_zero]
  intro e he
  have := h e he
  cases e <;> simp_all [Effect.quiet, Effect.counts]

lemma count_quiet {es : List Effect} (h : ∀ e ∈ es, e.quiet = true) (r : Resource) :
    es.count (.acquire r) = 0 ∧ es.count (.release r) = 0 := by
  constructor
  · exact List.count_eq_zero.mpr fun he => by simpa [Effect.quiet] using h _ he
  · exact List.count_eq_zero.mpr fun he => by simpa [Effect.quiet] using h _ he

end Relay

/-! ### One input -/

section React

variable {E : Type} {C : HandlerConfig E} {w w' : Shared} {x x' : Conn} {input : Input} {effects : List Effect}
  {n : ℕ}

/-- A drop counts where nothing was counted yet. -/
lemma Conn.Drops.uncounted {reason err : String} (h : x.Drops C input reason err)
    (hok : StageOk n x.closed x.stage) : n = 0 := by
  cases h with
  | ended _ hs => simpa [StageOk, hs] using hok
  | envelopeTimeout _ hs => simpa [StageOk, hs] using hok
  | clientError _ hs => simpa [StageOk, hs] using hok
  | verifyThrew hs => simpa [StageOk, hs] using hok
  | verifyRefused hs => simpa [StageOk, hs] using hok
  | admitThrew _ hs => simpa [StageOk, hs] using hok
  | admitRefused _ hs => simpa [StageOk, hs] using hok
  | lookRefused _ hs _ => simpa [StageOk, hs] using hok

lemma Conn.drop_ok {reason err : String} {closed : Bool} :
    StageOk ((x.drop reason err).2.countP Effect.counts) closed (x.drop reason err).1.stage := le_refl 1

lemma Conn.readChunk_ok {buf : List UInt8} {closed : Bool} :
    StageOk ((x.readChunk C buf).2.countP Effect.counts) closed (x.readChunk C buf).1.stage := by
  rcases x.readChunk_cases C buf with ⟨reason, err, h⟩ | ⟨-, h⟩ | ⟨-, host, port, -, h⟩
  · rw [h]
    exact Conn.drop_ok
  · rw [h]
    rfl
  · rw [h]
    rfl

lemma Conn.afterAdmit_ok {slot : Slot} {host : String} {port : ℕ} {rest : List UInt8} {now : ℤ} {closed : Bool} :
    StageOk ((x.afterAdmit C w slot host port rest now).2.2.countP Effect.counts) closed
      (x.afterAdmit C w slot host port rest now).2.1.stage := by
  unfold Conn.afterAdmit
  split
  · exact Conn.drop_ok
  · split
    · exact Nat.zero_le 1
    · simp only
      split
      · exact le_refl 1
      · rfl

lemma countP_release (l : List Resource) : (l.map Effect.release).countP Effect.counts = 0 := by
  rw [List.countP_eq_zero]
  intro e he
  obtain ⟨r, -, rfl⟩ := List.mem_map.mp he
  simp [Effect.counts]

/-- When the client closes, so does the socket to the destination. -/
lemma Conn.close_ok {now : ℤ} (h : StageOk n x.closed x.stage) :
    StageOk (n + (x.close C w now).2.2.countP Effect.counts) true (x.close C w now).2.1.stage := by
  rw [show (x.close C w now).2.2.countP Effect.counts = 0 from countP_release _, Nat.add_zero]
  unfold Conn.close
  cases hs : x.stage with
  | tunnel t =>
    rw [hs] at h
    have hshut : TunnelOk n x.closed { t with tunnelOpened := false, relaying := false, queue := [] } :=
      TunnelOk.wane h rfl rfl (fun _ => id) (fun _ => id) id
    have hdown := hshut.destroyUpstream
    refine ⟨hdown.one, hdown.fresh, hdown.only, fun _ i hi => ?_, hdown.linked⟩
    obtain ⟨hne, ho⟩ := Tunnel.destroyUpstream_isOpen.mp hi
    exact hne (hshut.only i ho)
  | returned => exact StageOk.one h
  | reading _ => rw [hs] at h; exact h
  | verifying _ _ _ => rw [hs] at h; exact h
  | admitting _ _ _ _ => rw [hs] at h; exact h
  | resolving _ _ _ _ => rw [hs] at h; exact h

/-- What an input does to the count and the sockets of a connection. -/
lemma Conn.Reacts.stageOk (hr : x.Reacts C w input w' x' effects) (h : StageOk n x.closed x.stage)
    (hclosed : x.closed = true → x.destroyed = true) :
    StageOk (n + effects.countP Effect.counts) x'.closed x'.stage := by
  have hat : ∀ {st}, x.stage = st → StageOk n x.closed st := fun hs => hs ▸ h
  have hzero : x.closed = true → x.destroyed = false → False := fun hc hlive => by simp [hclosed hc] at hlive
  cases hr with
  | drop hd =>
    obtain rfl := hd.uncounted h
    rw [Nat.zero_add]
    exact Conn.drop_ok
  | readChunk _ _ hs =>
    obtain rfl : n = 0 := hat hs
    rw [Nat.zero_add]
    exact Conn.readChunk_ok
  | verified hs =>
    have hn : n = 0 := hat hs
    exact hn
  | afterAdmit now hs =>
    obtain rfl : n = 0 := hat hs
    rw [Nat.zero_add]
    exact Conn.afterAdmit_ok
  | lookedLate now hs _ _ =>
    obtain rfl : n = 0 := hat hs
    exact Nat.zero_le 1
  | looked now hs _ hlive =>
    unfold Conn.openTunnel
    rw [(Conn.dialNext_keeps (t := _) ⟨by rw [hs]; rfl, fun _ => by rw [hs]; rfl⟩).closed]
    refine Conn.dialNext_ok now rfl rfl (fun i => by simp [Tunnel.IsOpen]) ?_ (hat hs)
    by_contra hc
    exact hzero (by simpa using hc) hlive
  | chunkLost bytes _ _ => exact h
  | ended _ _ => exact h
  | clientDown => exact h
  | clientError _ _ _ => exact h
  | clientErrorTunnel _ _ hs => exact TunnelOk.destroyUpstream (hat hs)
  | clientClosed now _ _ => exact Conn.close_ok h
  | chunk _ _ hs _ _ => exact TunnelOk.wane (hat hs) rfl rfl (fun _ => id) (fun _ => id) id
  | connectedLate now hs _ _ => exact TunnelOk.destroySocket (hat hs) _
  | @connected t i now hs hi hup hlive =>
    have ht : TunnelOk n x.closed t := hat hs
    have hest : t.established = false := by
      by_contra he
      exact ht.linked (by simpa using he) i hi
    obtain rfl : n = 0 := ht.fresh hest i hup (by simp [hi])
    obtain ⟨piped, limit, ht'⟩ := Tunnel.establish_eq C t w i now
    obtain ⟨forwarded, he, hq⟩ := Tunnel.establish_effects C t w i now
    rw [ht', he, List.countP_append, countP_quiet hq]
    refine ⟨le_refl 1, nofun, fun j hj => ?_, fun hc => ?_, fun _ j => ?_⟩
    · by_cases hji : j = i
      · rw [hji]
        exact hup
      · exact ht.only j (by simpa [Tunnel.IsOpen, hji] using hj)
    · exact (hzero hc hlive).elim
    · by_cases hji : j = i
      · simp [hji]
      · have hnot : ¬ t.IsOpen j := fun ho => hji (Option.some.inj ((ht.only j ho).symm.trans hup))
        simpa [hji] using fun hj => hnot (.inl hj)
  | failing hs ho => exact TunnelOk.update (hat hs) _ (.inl rfl) fun _ => ho
  | upstreamError code now hs hf =>
    rw [(Conn.upstreamError_keeps hs).closed]
    exact Conn.upstreamError_ok code now (hat hs) hf hclosed
  | upstreamTimeout now later _ hs ho =>
    rw [(Conn.upstreamTimeout_keeps hs).closed]
    exact Conn.upstreamTimeout_ok now later (hat hs) hs ho hclosed
  | upstreamClosed hs _ => exact TunnelOk.update (hat hs) _ (.inr rfl) nofun
  | @relay t bytes queue now hs _ _ =>
    obtain ⟨b, hb⟩ := Tunnel.transform_eq C { t with queue := queue } w now bytes
    rw [hb, countP_quiet Tunnel.transform_quiet]
    exact TunnelOk.wane (hat hs) rfl rfl (fun _ => id) (fun _ => id) id
  | fromDestination now hs _ _ => exact TunnelOk.wane (hat hs) rfl rfl (fun _ => id) (fun _ => id) id
  | payloadLimit hs _ => exact TunnelOk.wane (hat hs) rfl rfl (fun _ => id) (fun _ => id) id

end React

/-! ### The shared state -/

namespace ConnLimiter

variable {l l' : ConnLimiter} {n m : String} {max : ℕ}

lemma acquireNullifier_some (h : l.acquireNullifier max n = some l') :
    l'.total = l.total ∧ ∀ m, l'.nullifierCount m = l.nullifierCount m + if m = n then 1 else 0 := by
  unfold acquireNullifier at h
  split at h
  · cases h
  · obtain rfl := Option.some.inj h
    refine ⟨rfl, fun m => ?_⟩
    by_cases hm : m = n
    · subst hm
      simp [nullifierCount]
    · simp [nullifierCount, AList.lookup_insert_ne hm, hm]

lemma releaseNullifier_total : (l.releaseNullifier n).total = l.total := by
  unfold releaseNullifier
  split <;> rfl

lemma nullifierCount_release : (l.releaseNullifier n).nullifierCount m = l.nullifierCount m - if m = n then 1 else 0 := by
  unfold releaseNullifier
  by_cases hm : m = n
  · subst hm
    split
    · next hle =>
      simp only [nullifierCount, AList.lookup_erase, Option.getD_none, if_true] at hle ⊢
      omega
    · simp [nullifierCount]
  · split
    · simp [nullifierCount, AList.lookup_erase_ne hm]
    · simp [nullifierCount, AList.lookup_insert_ne hm]

end ConnLimiter

lemma count_acquire (l : List Resource) (r : Resource) :
    (l.map Effect.acquire).count (.acquire r) = l.count r ∧ (l.map Effect.acquire).count (.release r) = 0 := by
  refine ⟨List.count_map_of_injective _ _ (fun a b hab => by simpa using hab) r, List.count_eq_zero.mpr fun h => ?_⟩
  obtain ⟨r', -, hr'⟩ := List.mem_map.mp h
  cases hr'

lemma count_release (l : List Resource) (r : Resource) :
    (l.map Effect.release).count (.release r) = l.count r ∧ (l.map Effect.release).count (.acquire r) = 0 := by
  refine ⟨List.count_map_of_injective _ _ (fun a b hab => by simpa using hab) r, List.count_eq_zero.mpr fun h => ?_⟩
  obtain ⟨r', -, hr'⟩ := List.mem_map.mp h
  cases hr'

lemma count_one (r r' : Resource) : [r'].count r = if r = r' then 1 else 0 := by
  by_cases h : r = r'
  · simp [h]
  · rw [if_neg h]
    exact List.count_eq_zero.mpr (by simpa using h)

/-- How many of a resource are taken. -/
def Shared.count (w : Shared) : Resource → ℕ
  | .connection => w.limiter.total
  | .nullifier n => w.limiter.nullifierCount n
  | .payload k => w.budget.activeOf k
  | .tunnel => w.activeTunnels

section Count

variable {E : Type} {C : HandlerConfig E} {w w' : Shared} {x x' : Conn} {input : Input} {effects : List Effect}

/-- The resource is kept count of: a budget without a ceiling holds nothing. -/
def Resource.Kept (C : HandlerConfig E) (r : Resource) : Prop := ∀ k, r = .payload k → C.budget.maxBytes ≠ 0

lemma Shared.count_release {now : ℤ} {r r' : Resource} (hr : r'.Kept C) :
    (w.release C now r).count r' = w.count r' - if r' = r then 1 else 0 := by
  cases r with
  | connection => cases r' <;> simp [Shared.release, Shared.count, ConnLimiter.release, ConnLimiter.nullifierCount]
  | nullifier n =>
    cases r' <;> simp [Shared.release, Shared.count, ConnLimiter.releaseNullifier_total, ConnLimiter.nullifierCount_release]
  | payload k =>
    cases r' with
    | payload k' => simp [Shared.release, Shared.count, PayloadBudget.activeOf_release (hr k' rfl)]
    | connection => simp [Shared.release, Shared.count]
    | nullifier n => simp [Shared.release, Shared.count]
    | tunnel => simp [Shared.release, Shared.count]
  | tunnel => cases r' <;> simp [Shared.release, Shared.count]

lemma Shared.count_releases {now : ℤ} {r : Resource} (hr : r.Kept C) (l : List Resource) :
    (l.foldl (fun w r => w.release C now r) w).count r = w.count r - l.count r := by
  induction l generalizing w with
  | nil => simp
  | cons r' l ih =>
    rw [List.foldl_cons, ih, Shared.count_release hr]
    by_cases he : r = r'
    · subst he
      rw [if_pos rfl, List.count_cons_self]
      omega
    · rw [if_neg he, List.count_cons_of_ne (Ne.symm he), Nat.sub_zero]

/-- What an input does to what a connection and the gateway hold. -/
structure Conn.Balance (C : HandlerConfig E) (w : Shared) (x : Conn) (w' : Shared) (x' : Conn) (effects : List Effect) :
    Prop where
  settles : ∀ r, effects.count (.acquire r) + x.held.count r = effects.count (.release r) + x'.held.count r
  shared : ∀ r, r.Kept C → x.held.count r ≤ w.count r →
    w'.count r + effects.count (.release r) = w.count r + effects.count (.acquire r)
  once : ∀ r, effects.count (.acquire r) ≤ 1
  first : ∀ r, 0 < effects.count (.acquire r) → r ≠ .connection ∧
    if r = .tunnel then x.stage.unopened = true ∧ x'.stage.unopened = false
    else x.stage.early = true ∧ x'.stage.early = false
  early : x'.stage.early = true → x.stage.early = true
  unopened : x'.stage.unopened = true → x.stage.unopened = true
  closed : x'.closed = true → x'.destroyed = true ∧ x'.held = [] ∨
    x.closed = true ∧ (x.destroyed = true → x'.destroyed = true) ∧ x'.held = x.held

lemma Conn.Keeps.balance (h : x.Keeps x' effects) (hcount : ∀ r, w'.count r = w.count r)  :
    Conn.Balance C w x w' x' effects where
  settles r := by rw [(h.effects r).1, (h.effects r).2, h.held]
  shared r _ _ := by rw [(h.effects r).1, (h.effects r).2, hcount]
  once r := by rw [(h.effects r).1]; exact Nat.zero_le 1
  first r hr := by rw [(h.effects r).1] at hr; cases hr
  early := h.early
  unopened := h.unopened
  closed hc := .inr ⟨h.closed ▸ hc, h.destroyed, h.held⟩

/-- The slots taken when the envelope is let pass. -/
lemma Conn.afterAdmit_balance {slot : Slot} {host : String} {port : ℕ} {rest : List UInt8} {now : ℤ}
    (hs : x.stage = .admitting slot host port rest) (hn : x.nullifierSlotHeld = none) (hp : x.payloadBudgetHeld = none)
    (hclosed : x.closed = true → x.destroyed = true) :
    Conn.Balance C w x (x.afterAdmit C w slot host port rest now).1 (x.afterAdmit C w slot host port rest now).2.1
      (x.afterAdmit C w slot host port rest now).2.2 := by
  have hearly : x.stage.early = true := by rw [hs]; rfl
  have hopened : x.stage.opened = false := by rw [hs]; rfl
  have hheld : x.held = if x.connHeld then [.connection] else [] := by simp [Conn.held, hn, hp, hopened]
  unfold Conn.afterAdmit
  split
  · exact (Conn.drop_keeps hopened).balance fun _ => rfl
  next limiter hl =>
  obtain ⟨htotal, hcount⟩ := ConnLimiter.acquireNullifier_some hl
  split
  · have hacq : ∀ r, [Effect.acquire (.nullifier slot.nullifier), .release (.nullifier slot.nullifier)].count
        (.acquire r) = if r = .nullifier slot.nullifier then 1 else 0 := by
      intro r
      have h := count_acquire [.nullifier slot.nullifier] r
      have h' := count_release [.nullifier slot.nullifier] r
      rw [show [Effect.acquire (.nullifier slot.nullifier), .release (.nullifier slot.nullifier)] =
        [Resource.nullifier slot.nullifier].map .acquire ++ [Resource.nullifier slot.nullifier].map .release from rfl,
        List.count_append, h.1, h'.2, count_one, Nat.add_zero]
    have hrel : ∀ r, [Effect.acquire (.nullifier slot.nullifier), .release (.nullifier slot.nullifier)].count
        (.release r) = if r = .nullifier slot.nullifier then 1 else 0 := by
      intro r
      have h := count_acquire [.nullifier slot.nullifier] r
      have h' := count_release [.nullifier slot.nullifier] r
      rw [show [Effect.acquire (.nullifier slot.nullifier), .release (.nullifier slot.nullifier)] =
        [Resource.nullifier slot.nullifier].map .acquire ++ [Resource.nullifier slot.nullifier].map .release from rfl,
        List.count_append, h.2, h'.1, count_one, Nat.zero_add]
    have hsame : Conn.held { x with stage := .returned } = x.held := by simp only [Conn.held, hopened]; rfl
    refine ⟨fun r => ?_, fun r _ _ => ?_, fun r => ?_, fun r hr => ?_, nofun, nofun, fun hc => .inr ⟨hc, id, hsame⟩⟩
    · rw [hacq, hrel, hsame]
    · rw [hacq, hrel]
      cases r with
      | connection => simp [Shared.count, ConnLimiter.releaseNullifier_total, htotal]
      | nullifier m =>
        simp only [Shared.count, ConnLimiter.nullifierCount_release, hcount]
        by_cases hm : m = slot.nullifier <;> simp [hm]
      | payload k => simp [Shared.count]
      | tunnel => simp [Shared.count]
    · rw [hacq]
      split <;> decide
    · rw [hacq] at hr
      have hr : r = .nullifier slot.nullifier := by
        by_contra hne
        simp [hne] at hr
      subst hr
      refine ⟨nofun, ?_⟩
      rw [if_neg nofun]
      exact ⟨hearly, rfl⟩
  next hlive =>
  -- the client is there: both slots are taken, whatever follows
  have htaken : ∀ (st : Stage) (destroyed : Bool) (es : List Effect), st.early = false → st.opened = false →
      (∀ r, es.count (.acquire r) = 0 ∧ es.count (.release r) = 0) → (st.unopened = true → x.stage.unopened = true) →
      Conn.Balance C w x { w with limiter := limiter, budget := (w.budget.acquire C.budget now slot).1 }
        { x with
          stage := st
          destroyed := destroyed
          nullifierSlotHeld := some slot.nullifier
          payloadBudgetHeld := some slot }
        ([.acquire (.nullifier slot.nullifier), .acquire (.payload slot)] ++ es) := by
    intro st destroyed es hst hop hes hun
    have hacq : ∀ r, ([Effect.acquire (.nullifier slot.nullifier), .acquire (.payload slot)] ++ es).count (.acquire r) =
        [Resource.nullifier slot.nullifier, .payload slot].count r := by
      intro r
      rw [List.count_append, (hes r).1]
      exact (count_acquire [.nullifier slot.nullifier, .payload slot] r).1
    have hrel : ∀ r, ([Effect.acquire (.nullifier slot.nullifier), .acquire (.payload slot)] ++ es).count (.release r) = 0 := by
      intro r
      rw [List.count_append, (hes r).2]
      exact (count_acquire [.nullifier slot.nullifier, .payload slot] r).2
    have hpair : ∀ r, [Resource.nullifier slot.nullifier, .payload slot].count r =
        (if r = .nullifier slot.nullifier then 1 else 0) + if r = .payload slot then 1 else 0 := by
      intro r
      rw [← count_one, ← count_one, ← List.count_append]
      rfl
    refine ⟨fun r => ?_, fun r hr _ => ?_, fun r => ?_, fun r hr => ?_, fun he => ?_, hun, fun hc => ?_⟩
    · rw [hacq, hrel, hheld]
      have hafter : Conn.held
          { x with
            stage := st
            destroyed := destroyed
            nullifierSlotHeld := some slot.nullifier
            payloadBudgetHeld := some slot } =
          (if x.connHeld then [.connection] else []) ++ [.nullifier slot.nullifier, .payload slot] := by
        simp [Conn.held, hop]
      rw [hafter, List.count_append]
      omega
    · rw [hacq, hrel, hpair]
      cases r with
      | connection => simp [Shared.count, htotal]
      | nullifier m => simp [Shared.count, hcount]
      | payload k => simp [Shared.count, PayloadBudget.activeOf_acquire (hr k rfl)]
      | tunnel => simp [Shared.count]
    · rw [hacq]
      exact List.nodup_iff_count_le_one.mp (by simp) r
    · rw [hacq] at hr
      have hmem := List.count_pos_iff.mp hr
      obtain rfl | rfl : r = .nullifier slot.nullifier ∨ r = .payload slot := by simpa using hmem
      · simp [hearly, hst]
      · simp [hearly, hst]
    · rw [hst] at he
      cases he
    · exact absurd (hclosed hc) hlive
  simp only
  split
  · exact htaken .returned true _ rfl rfl (fun r => by simp [Conn.drop]) nofun
  · simpa using htaken (.resolving slot host port rest) x.destroyed [] rfl rfl (fun r => by simp)
      fun _ => by rw [hs]; rfl

/-- A tunnel that is established takes its place among the open ones. -/
lemma Tunnel.establish_balance {t : Tunnel} {i : ℕ} {now : ℤ} (hs : x.stage = .tunnel t) (hest : t.established = false)
    (hopen : t.tunnelOpened = false) (hclosed : x.closed = true → x.destroyed = true) (hlive : x.destroyed = false) :
    Conn.Balance C w x (t.establish C w i now).1 { x with stage := .tunnel (t.establish C w i now).2.1 }
      (t.establish C w i now).2.2 := by
  obtain ⟨piped, limit, ht'⟩ := Tunnel.establish_eq C t w i now
  obtain ⟨forwarded, he, hq⟩ := Tunnel.establish_effects C t w i now
  obtain ⟨hlim, hactive, hbudget⟩ := Tunnel.establish_shared C t w i now
  have hacq : ∀ r, (t.establish C w i now).2.2.count (.acquire r) = [Resource.tunnel].count r := by
    intro r
    rw [he, List.count_append, (count_quiet hq r).1, count_one, Nat.add_zero]
    by_cases hr : r = .tunnel
    · simp [hr]
    · rw [if_neg hr]
      exact List.count_eq_zero.mpr (by simpa using hr)
  have hrel : ∀ r, (t.establish C w i now).2.2.count (.release r) = 0 := by
    intro r
    rw [he, List.count_append, (count_quiet hq r).2]
    simp
  refine ⟨fun r => ?_, fun r _ _ => ?_, fun r => ?_, fun r hr => ?_, fun hc => ?_, fun hc => ?_, fun hc => ?_⟩
  · rw [hacq, hrel]
    simp only [Conn.held, hs, ht', Stage.opened, hopen, List.count_append, if_true, Bool.false_eq_true, if_false,
      List.count_nil]
    omega
  · rw [hacq, hrel]
    cases r with
    | connection => simp [Shared.count, hlim]
    | nullifier m => simp [Shared.count, hlim]
    | payload k => simp [Shared.count, hbudget]
    | tunnel => simp [Shared.count, hactive]
  · rw [hacq]
    exact List.nodup_iff_count_le_one.mp (by simp) r
  · rw [hacq] at hr
    obtain rfl : r = .tunnel := by simpa using List.count_pos_iff.mp hr
    simp [hs, ht', Stage.unopened, hest]
  · simp [Stage.early] at hc
  · simp [Stage.unopened, ht'] at hc
  · rw [hclosed hc] at hlive
    cases hlive

/-- When the client closes, all that is held is given back. -/
lemma Conn.close_balance {now : ℤ} (hd : x.destroyed = true) :
    Conn.Balance C w x (x.close C w now).1 (x.close C w now).2.1 (x.close C w now).2.2 := by
  have hnone : (x.close C w now).2.1.held = [] := by
    unfold Conn.close Conn.held
    cases x.stage <;> simp [Stage.opened, Tunnel.close]
  have hacq : ∀ r, (x.close C w now).2.2.count (.acquire r) = 0 := fun r => (count_release x.held r).2
  have hrel : ∀ r, (x.close C w now).2.2.count (.release r) = x.held.count r := fun r => (count_release x.held r).1
  refine ⟨fun r => ?_, fun r hr hle => ?_, fun r => ?_, fun r hr => ?_, fun hc => ?_, fun hc => ?_,
    fun _ => .inl ⟨hd, hnone⟩⟩
  · rw [hacq, hrel, hnone, List.count_nil]
    omega
  · rw [hacq, hrel]
    have hcount : (x.close C w now).1.count r = w.count r - x.held.count r := Shared.count_releases hr _
    omega
  · rw [hacq]
    exact Nat.zero_le 1
  · rw [hacq] at hr
    cases hr
  · unfold Conn.close at hc
    cases hs : x.stage <;> simp_all [Stage.early]
  · unfold Conn.close at hc
    cases hs : x.stage <;> simp_all [Stage.unopened, Tunnel.close]

/-- What an input does to what is held. -/
lemma Conn.Reacts.balance {n : ℕ} (hr : x.Reacts C w input w' x' effects) (hok : StageOk n x.closed x.stage)
    (hclosed : x.closed = true → x.destroyed = true)
    (hearly : x.stage.early = true → x.nullifierSlotHeld = none ∧ x.payloadBudgetHeld = none)
    (hopened : x.stage.unopened = true → x.stage.opened = false) : Conn.Balance C w x w' x' effects := by
  have hkept : ∀ {t t' : Tunnel}, x.stage = .tunnel t → t'.tunnelOpened = t.tunnelOpened → t'.established = t.established →
      t'.Continues x := fun hs ho he => ⟨ho.trans (Tunnel.Continues.refl hs).opened,
        fun hun => (Tunnel.Continues.refl hs).unopened (he.symm.trans hun)⟩
  have hzero : ∀ r, ([] : List Effect).count (.acquire r) = 0 ∧ ([] : List Effect).count (.release r) = 0 :=
    fun r => ⟨rfl, rfl⟩
  cases hr with
  | drop hd => exact (Conn.drop_keeps hd.notOpened).balance fun _ => rfl
  | readChunk _ _ hs => exact (Conn.readChunk_keeps hs).balance fun _ => rfl
  | @verified slot host port rest hs =>
    have hk : x.Keeps { x with stage := .admitting slot host port rest } [] :=
      .stage (by rw [hs]; rfl) (fun _ => by rw [hs]; rfl) (fun _ => by rw [hs]; rfl) id hzero
    exact hk.balance fun _ => rfl
  | afterAdmit now hs =>
    obtain ⟨hn, hp⟩ := hearly (by rw [hs]; rfl)
    exact Conn.afterAdmit_balance hs hn hp hclosed
  | lookedLate now hs _ _ =>
    have hk : x.Keeps { x with stage := .returned } [] := .stage (by rw [hs]; rfl) nofun nofun id hzero
    exact hk.balance fun _ => rfl
  | looked now hs _ _ =>
    exact (Conn.dialNext_keeps ⟨by rw [hs]; rfl, fun _ => by rw [hs]; rfl⟩).balance fun _ => rfl
  | chunkLost bytes _ _ => exact (⟨rfl, id, rfl, hzero, id, id⟩ : x.Keeps x []).balance fun _ => rfl
  | ended _ _ => exact (⟨rfl, id, rfl, hzero, id, id⟩ : x.Keeps x []).balance fun _ => rfl
  | clientDown =>
    exact (⟨rfl, fun _ => rfl, rfl, hzero, id, id⟩ : x.Keeps { x with destroyed := true } []).balance fun _ => rfl
  | clientError _ _ _ =>
    exact (⟨rfl, fun _ => rfl, rfl, hzero, id, id⟩ : x.Keeps { x with destroyed := true } []).balance fun _ => rfl
  | clientErrorTunnel _ _ hs =>
    exact ((hkept hs (by simp) (by simp)).keeps (fun _ => rfl) hzero).balance fun _ => rfl
  | clientClosed now hd _ => exact Conn.close_balance hd
  | @chunk t bytes _ _ hs _ _ =>
    have hc : Tunnel.Continues x { t with queue := t.queue ++ [bytes] } := hkept hs rfl rfl
    exact (hc.keeps id hzero).balance fun _ => rfl
  | connectedLate now hs _ _ => exact ((hkept hs (by simp) (by simp)).keeps id hzero).balance fun _ => rfl
  | @connected t i now hs hi _ hlive =>
    rw [hs] at hok hopened
    have hest : t.established = false := by
      by_contra he
      exact TunnelOk.linked hok (by simpa using he) i hi
    exact Tunnel.establish_balance hs hest (hopened (by simp [Stage.unopened, hest])) hclosed hlive
  | @failing t i hs _ =>
    have hc : Tunnel.Continues x { t with sockets := Function.update t.sockets i .failing } := hkept hs rfl rfl
    exact (hc.keeps id hzero).balance fun _ => rfl
  | upstreamError code now hs _ => exact (Conn.upstreamError_keeps hs).balance fun _ => rfl
  | upstreamTimeout now later _ hs _ => exact (Conn.upstreamTimeout_keeps hs).balance fun _ => rfl
  | @upstreamClosed t i hs _ =>
    have hc : Tunnel.Continues x { t with sockets := Function.update t.sockets i .gone } := hkept hs rfl rfl
    exact (hc.keeps id hzero).balance fun _ => rfl
  | @relay t bytes queue now hs _ _ =>
    obtain ⟨b, hb⟩ := Tunnel.transform_eq C { t with queue := queue } w now bytes
    obtain ⟨hlim, hactive, hbudget⟩ := Tunnel.transform_shared C { t with queue := queue } w now bytes
    have hc : Tunnel.Continues x ({ t with queue := queue }.transform C w now bytes).2.1 := by
      rw [hb]
      exact hkept hs rfl rfl
    refine (hc.keeps id fun r => count_quiet Tunnel.transform_quiet r).balance fun r => ?_
    cases r with
    | connection => simp [Shared.count, hlim]
    | nullifier m => simp [Shared.count, hlim]
    | payload k => simp [Shared.count, hbudget]
    | tunnel => simp [Shared.count, hactive]
  | @fromDestination t size budget result now hs _ htake =>
    have hc : Tunnel.Continues x
        { t with payloadLimitScheduled := t.payloadLimitScheduled || result.exhausted } := hkept hs rfl rfl
    refine (hc.keeps id hzero).balance fun r => ?_
    cases r with
    | payload k => simp [Shared.count, PayloadBudget.activeOf_take htake]
    | connection => rfl
    | nullifier m => rfl
    | tunnel => rfl
  | @payloadLimit t hs _ =>
    have hc : Tunnel.Continues x
        { t with gatewayCloseReason :=
                  if t.established then t.gatewayCloseReason.or (some "payload-limit") else t.gatewayCloseReason } :=
      hkept hs rfl rfl
    exact (hc.keeps id hzero).balance fun _ => rfl

end Count

/-! ### A connection over a run -/

def acquiredIn (h : List (Input × List Effect)) (r : Resource) : ℕ := (effectsIn h).count (.acquire r)

def releasedIn (h : List (Input × List Effect)) (r : Resource) : ℕ := (effectsIn h).count (.release r)

lemma acquiredIn_snoc (h : List (Input × List Effect)) (e : Input × List Effect) (r : Resource) :
    acquiredIn (h ++ [e]) r = acquiredIn h r + e.2.count (.acquire r) := by
  rw [acquiredIn, effectsIn_snoc, List.count_append, acquiredIn]

lemma releasedIn_snoc (h : List (Input × List Effect)) (e : Input × List Effect) (r : Resource) :
    releasedIn (h ++ [e]) r = releasedIn h r + e.2.count (.release r) := by
  rw [releasedIn, effectsIn_snoc, List.count_append, releasedIn]

/-- What is taken and not given back is held; nothing is held once the client is closed. -/
structure Settled (h : List (Input × List Effect)) (x : Conn) : Prop where
  ledger : ∀ r, acquiredIn h r = releasedIn h r + x.held.count r
  once : ∀ r, acquiredIn h r ≤ 1
  early : x.stage.early = true → ∀ r, r ≠ .connection → acquiredIn h r = 0
  unopened : x.stage.unopened = true → acquiredIn h .tunnel = 0
  closed : x.closed = true → x.destroyed = true ∧ x.held = []
  stage : StageOk (countedIn h) x.closed x.stage

section Run

variable {E : Type} {C : HandlerConfig E} {w w' : Shared} {x x' : Conn} {input : Input} {effects : List Effect}
  {h : List (Input × List Effect)}

lemma Settled.not_held (hs : Settled h x) {r : Resource} (hr : acquiredIn h r = 0) : r ∉ x.held := by
  intro hmem
  have hpos := List.count_pos_iff.mpr hmem
  have := hs.ledger r
  omega

/-- The balance of an input that comes to a settled connection. -/
lemma Settled.balance (hs : Settled h x) (hr : x.Reacts C w input w' x' effects) :
    Conn.Balance C w x w' x' effects := by
  refine hr.balance hs.stage (fun hc => (hs.closed hc).1) (fun he => ?_) fun hun => ?_
  · constructor
    · cases hn : x.nullifierSlotHeld with
      | none => rfl
      | some n => exact absurd (by simp [Conn.held, hn]) (hs.not_held (hs.early he (.nullifier n) nofun))
    · cases hp : x.payloadBudgetHeld with
      | none => rfl
      | some k => exact absurd (by simp [Conn.held, hp]) (hs.not_held (hs.early he (.payload k) nofun))
  · by_contra ho
    exact hs.not_held (hs.unopened hun) (by simp [Conn.held, ho])

lemma Settled.react (hs : Settled h x) (hr : x.Reacts C w input w' x' effects) : Settled (h ++ [(input, effects)]) x' := by
  have hb := hs.balance hr
  have hfirst : ∀ r, 0 < effects.count (.acquire r) → acquiredIn h r = 0 := by
    intro r hpos
    obtain ⟨hne, hst⟩ := hb.first r hpos
    split at hst
    · next ht =>
      subst ht
      exact hs.unopened hst.1
    · exact hs.early hst.1 r hne
  refine ⟨fun r => ?_, fun r => ?_, fun he r hne => ?_, fun hun => ?_, fun hc => ?_, ?_⟩
  · have := hb.settles r
    have := hs.ledger r
    rw [acquiredIn_snoc, releasedIn_snoc]
    simp only
    omega
  · rw [acquiredIn_snoc]
    have := hb.once r
    have := hs.once r
    have := hfirst r
    simp only
    omega
  · rw [acquiredIn_snoc, hs.early (hb.early he) r hne]
    by_contra hpos
    obtain ⟨-, hst⟩ := hb.first r (Nat.pos_of_ne_zero (by simpa using hpos))
    split at hst
    · have : x'.stage.unopened = true := by cases hx : x'.stage <;> simp_all [Stage.early, Stage.unopened]
      rw [hst.2] at this
      cases this
    · rw [he] at hst
      cases hst.2
  · rw [acquiredIn_snoc, hs.unopened (hb.unopened hun)]
    by_contra hpos
    obtain ⟨-, hst⟩ := hb.first .tunnel (Nat.pos_of_ne_zero (by simpa using hpos))
    rw [if_pos rfl, hun] at hst
    cases hst.2
  · rcases hb.closed hc with hdone | ⟨hx, hd, hheld⟩
    · exact hdone
    · exact ⟨hd (hs.closed hx).1, hheld.trans (hs.closed hx).2⟩
  · rw [countedIn_snoc]
    exact hr.stageOk hs.stage fun hc => (hs.closed hc).1

lemma Settled.fresh : Settled [(.connection, [.acquire .connection])] .fresh where
  ledger r := by cases r <;> rfl
  once _ := List.count_le_length
  early _ r hne := by cases r <;> simp_all [acquiredIn, effectsIn]
  unopened _ := rfl
  closed hc := by cases hc
  stage := rfl

lemma Settled.refused : Settled
    [(.connection, [.tunnels (some "too-many-connections"), .reply (some "too-many-connections")])] .refused where
  ledger r := by cases r <;> rfl
  once r := by simp [acquiredIn, effectsIn]
  early he := by cases he
  unopened hun := by cases hun
  closed hc := by cases hc
  stage := le_refl 1

lemma HandlerStep.settled {tr : List HandlerEvent} {s : Handlers} (hrun : Run (HandlerStep C) .start tr s) (c : ℕ)
    {x : Conn} (hx : s.conns c = some x) : Settled (historyOf tr c) x :=
  (HandlerStep.every_conn .fresh .refused (fun _ _ _ _ _ _ _ hs hr => hs.react hr) hrun c).2 x hx

/-- What a connection holds of a resource. -/
def Handlers.heldBy (s : Handlers) (r : Resource) (c : ℕ) : ℕ :=
  match s.conns c with
  | none => 0
  | some x => x.held.count r

/-- The sockets to the destination of a connection that are open. -/
def Conn.upstreamOpen (x : Conn) (i : ℕ) : Prop := ∃ t, x.stage = .tunnel t ∧ t.IsOpen i

lemma Handlers.heldBy_update (s : Handlers) (w : Shared) (c : ℕ) (x : Conn) (r : Resource) :
    Handlers.heldBy ⟨w, Function.update s.conns c (some x)⟩ r = Function.update (s.heldBy r) c (x.held.count r) := by
  funext c'
  by_cases hc : c' = c
  · subst hc
    simp [Handlers.heldBy]
  · simp [Handlers.heldBy, hc]

/-- The gateway counts what the connections hold, one by one. -/
lemma HandlerStep.sums {tr : List HandlerEvent} {s : Handlers} (hrun : Run (HandlerStep C) .start tr s)
    {r : Resource} (hr : r.Kept C) : Sums (s.heldBy r) (s.shared.count r) := by
  induction hrun with
  | nil =>
    have hzero : Handlers.start.shared.count r = 0 := by
      cases r <;> simp [Handlers.start, Shared.count, ConnLimiter.nullifierCount, PayloadBudget.activeOf]
    rw [hzero]
    exact Sums.zero
  | @snoc tr s s' e hrun hst ih =>
    cases hst with
    | @accept c limiter hnone hl =>
      have hx : s.heldBy r c = 0 := by simp [Handlers.heldBy, hnone]
      have hsum := ih.update c (Conn.fresh.held.count r)
      rw [hx] at hsum
      rw [Handlers.heldBy_update]
      unfold ConnLimiter.acquire at hl
      split at hl
      · cases hl
      · obtain rfl := Option.some.inj hl
        convert hsum using 1
        cases r <;> simp [Shared.count, Conn.fresh, Conn.held, Stage.opened, ConnLimiter.nullifierCount]
    | @refuse c hnone hl =>
      have hx : s.heldBy r c = 0 := by simp [Handlers.heldBy, hnone]
      have hsum := ih.update c (Conn.refused.held.count r)
      rw [hx] at hsum
      rw [Handlers.heldBy_update]
      simpa [Conn.refused, Conn.held, Stage.opened] using hsum
    | @react c x x' input w effects hx hreact =>
      have hs := HandlerStep.settled hrun c hx
      have hb := hs.balance hreact
      have hheld : s.heldBy r c = x.held.count r := by simp [Handlers.heldBy, hx]
      have hle := hheld ▸ ih.le c
      have hsum := ih.update c (x'.held.count r)
      rw [hheld] at hsum
      rw [Handlers.heldBy_update]
      convert hsum using 1
      have := hb.settles r
      have := hb.shared r hr hle
      show w.count r = s.shared.count r - x.held.count r + x'.held.count r
      omega
    | sweep now =>
      have hsame : Shared.count { s.shared with budget := s.shared.budget.sweep C.budget now } r = s.shared.count r := by
        cases r <;> simp [Shared.count]
      rw [hsame]
      exact ih

/-- **Handlers keep the balance.** In every order of inputs: a connection takes each resource at most once and
gives back no more than it took; once its client socket is closed all is given back and no socket to the
destination is open; it is counted at most once; and the gateway counts exactly what the connections hold. -/
theorem handlers_balanced {tr : List HandlerEvent} {s : Handlers} (hrun : Run (HandlerStep C) .start tr s) :
    (∀ c r, releasedIn (historyOf tr c) r ≤ acquiredIn (historyOf tr c) r ∧ acquiredIn (historyOf tr c) r ≤ 1) ∧
    (∀ c, countedIn (historyOf tr c) ≤ 1) ∧
    (∀ c x, s.conns c = some x → x.closed = true →
      (∀ r, releasedIn (historyOf tr c) r = acquiredIn (historyOf tr c) r) ∧ ∀ i, ¬ x.upstreamOpen i) ∧
    ∀ r, r.Kept C → Sums (s.heldBy r) (s.shared.count r) := by
  have hconn := HandlerStep.every_conn (I := Settled) .fresh .refused (fun _ _ _ _ _ _ _ hs hr => hs.react hr) hrun
  refine ⟨fun c r => ?_, fun c => ?_, fun c x hx hc => ?_, fun r hr => HandlerStep.sums hrun hr⟩
  · cases hx : s.conns c with
    | none => simp [(hconn c).1 hx, releasedIn, acquiredIn, effectsIn]
    | some x =>
      have hs := (hconn c).2 x hx
      have := hs.ledger r
      exact ⟨by omega, hs.once r⟩
  · cases hx : s.conns c with
    | none => simp [(hconn c).1 hx, countedIn, effectsIn]
    | some x => exact ((hconn c).2 x hx).stage.one
  · have hs := (hconn c).2 x hx
    refine ⟨fun r => ?_, ?_⟩
    · have := hs.ledger r
      rw [(hs.closed hc).2, List.count_nil] at this
      omega
    · rintro i ⟨t, ht, ho⟩
      have hok := hs.stage
      rw [ht] at hok
      exact TunnelOk.shut hok hc i ho

end Run

/-! ### A tunnel from its envelope to its end -/

/-- The next input of a connection. -/
lemma HandlerStep.next {E : Type} {C : HandlerConfig E} {tr : List HandlerEvent} {s : Handlers} {c : ℕ} {x x' : Conn}
    {w w' : Shared} {input : Input} {effects : List Effect} (hrun : Run (HandlerStep C) .start tr s)
    (hx : s.conns c = some x) (hw : s.shared = w) (hr : x.Reacts C w input w' x' effects) :
    ∃ s', Run (HandlerStep C) .start (tr ++ [.at c input effects]) s' ∧ s'.conns c = some x' ∧ s'.shared = w' := by
  subst hw
  exact ⟨_, hrun.snoc (.react hx hr), by simp, rfl⟩

/-- A gateway without a ceiling on the payload, whose envelopes all ask for one address. -/
def plainConfig : HandlerConfig Unit where
  maxConns := 1024
  maxConnsPerNullifier := 8
  envelopeTimeoutMs := 30000
  idleTimeoutMs := 300000
  budget := ⟨0, 1200000, by decide, by decide⟩
  allowPrivateTargets := false
  parse _ := .ok ()
  acceptEnvelopeVersion _ := none
  target _ := some "1.1.1.1:443"
  targetPolicy _ port := port == 443

def plainSlot : Slot := ⟨"7", "1", by decide⟩

def plainTunnel : Tunnel where
  slot := plainSlot
  port := 443
  rest := []
  candidates := [⟨"1.1.1.1", "4"⟩]
  candidateIndex := 1
  connectDeadlineAt := some 300000
  upstream := some 0
  sockets := Function.update (Function.update (fun _ => .gone) 0 .connecting) 0 .connected
  established := true
  tunnelOpened := true
  gatewayCloseReason := none
  relaying := true
  piped := true
  queue := []
  payloadLimitScheduled := false

/-- The envelope, a chunk while the proof is verified, and the tunnel is established. -/
def plainTrace (early : List UInt8) : List HandlerEvent := [
  .at 0 .connection [.acquire .connection],
  .at 0 (.chunk [123, 125, 10]) [],
  .at 0 (.chunk early) [],
  .at 0 (.verified (some (.ok plainSlot))) [],
  .at 0 (.admitted (some (.ok ())) 0) [.acquire (.nullifier "7"), .acquire (.payload plainSlot)],
  .at 0 (.looked none 0) [.dial 0 443 "1.1.1.1"],
  .at 0 (.connected 0 0) [.acquire .tunnel, .tunnels none, .reply none]]

lemma plainRun (early : List UInt8) : ∃ s, Run (HandlerStep plainConfig) .start (plainTrace early) s ∧
    s.conns 0 = some ⟨.tunnel plainTunnel, false, false, true, some "7", some plainSlot⟩ := by
  have h1 : Run (HandlerStep plainConfig) .start [.at 0 .connection [.acquire .connection]] _ :=
    Run.single (.accept rfl rfl)
  have htarget : validTarget plainConfig.targetPolicy (plainConfig.target ()) = .ok ("1.1.1.1", 443) := by
    decide +kernel
  have hread : Conn.fresh.readChunk plainConfig ([] ++ [123, 125, 10]) =
      ({ Conn.fresh with stage := .verifying "1.1.1.1" 443 [] }, []) := by
    have hnl : (10 : UInt8) ∈ [] ++ [123, 125, 10] := by decide
    simp only [Conn.readChunk, hnl, not_true, if_false, plainConfig] at htarget ⊢
    rw [htarget]
    rfl
  have hline : ∀ w, Conn.Reacts plainConfig w .fresh (.chunk [123, 125, 10]) w
      { Conn.fresh with stage := .verifying "1.1.1.1" 443 [] } [] := by
    intro w
    have hlen : (([123, 125, 10] : List UInt8).length : ℤ) ≤ MAX_SAFE_INTEGER := by decide
    have hr : Conn.Reacts plainConfig w .fresh (.chunk [123, 125, 10]) w
        (Conn.fresh.readChunk plainConfig ([] ++ [123, 125, 10])).1
        (Conn.fresh.readChunk plainConfig ([] ++ [123, 125, 10])).2 := .readChunk hlen rfl rfl
    rwa [hread] at hr
  obtain ⟨s2, h2, hx2, hw2⟩ := HandlerStep.next (c := 0) h1 rfl rfl (hline _)
  obtain ⟨s3, h3, hx3, hw3⟩ := HandlerStep.next h2 hx2 hw2 (.chunkLost early rfl rfl)
  obtain ⟨s4, h4, hx4, hw4⟩ := HandlerStep.next h3 hx3 hw3 (.verified (s := plainSlot) rfl)
  obtain ⟨s5, h5, hx5, hw5⟩ := HandlerStep.next h4 hx4 hw4 (.afterAdmit 0 rfl)
  have hlook : resolveEgressTarget plainConfig.allowPrivateTargets "1.1.1.1" none = .ok [⟨"1.1.1.1", "4"⟩] := by
    decide +kernel
  obtain ⟨s6, h6, hx6, hw6⟩ := HandlerStep.next h5 hx5 hw5 (.looked 0 rfl hlook rfl)
  obtain ⟨s7, h7, hx7, hw7⟩ := HandlerStep.next h6 hx6 hw6 (.connected 0 rfl rfl rfl rfl)
  exact ⟨s7, h7, hx7⟩

/-- The client goes: the place of the tunnel is given back. -/
theorem handlers_balanced_plain : ∃ tr s x, Run (HandlerStep plainConfig) .start tr s ∧ s.conns 0 = some x ∧
    x.closed = true ∧ acquiredIn (historyOf tr 0) .tunnel = 1 ∧ releasedIn (historyOf tr 0) .tunnel = 1 ∧
    countedIn (historyOf tr 0) ≤ 1 ∧ ∀ i, ¬ x.upstreamOpen i := by
  obtain ⟨s, hrun, hx⟩ := plainRun []
  obtain ⟨s₁, h₁, hx₁, hw₁⟩ := HandlerStep.next hrun hx rfl .clientDown
  obtain ⟨s₂, h₂, hx₂, hw₂⟩ := HandlerStep.next h₁ hx₁ hw₁ (.clientClosed 0 rfl rfl)
  have hbalanced := handlers_balanced h₂
  obtain ⟨hall, hshut⟩ := hbalanced.2.2.1 0 _ hx₂ rfl
  exact ⟨_, s₂, _, h₂, hx₂, rfl, rfl, (hall .tunnel).trans rfl, hbalanced.2.1 0, hshut⟩

end ShadeTree.Gateway
