import ShadeTree.Gateway.EarlyBytes

/-!
# What a connection dials

The target of an envelope is resolved once, and what is dialed are the candidates of that resolution, one after
the other: a socket that fails or takes too long is followed by the next candidate and never by another lookup.
-/

namespace ShadeTree.Gateway

open ShadeTree.Lib

/-- A lookup that the handler has waited for. -/
def Input.lookup : Input → Option (Option (List (Option Answer)))
  | .looked answers _ => some answers
  | _ => none

/-- The port and the address of a dial. -/
def Effect.dialed : Effect → Option (ℕ × String)
  | .dial _ port address => some (port, address)
  | _ => none

/-- The lookups of a connection. -/
def lookupsIn (h : List (Input × List Effect)) : List (Option (List (Option Answer))) :=
  h.filterMap fun e => e.1.lookup

/-- What a connection dialed, in order. -/
def dialsIn (h : List (Input × List Effect)) : List (ℕ × String) := (effectsIn h).filterMap Effect.dialed

lemma lookupsIn_snoc (h : List (Input × List Effect)) (e : Input × List Effect) :
    lookupsIn (h ++ [e]) = lookupsIn h ++ e.1.lookup.toList := by
  rw [lookupsIn, List.filterMap_append, lookupsIn]
  cases he : e.1.lookup <;> simp [he]

lemma dialsIn_snoc (h : List (Input × List Effect)) (e : Input × List Effect) :
    dialsIn (h ++ [e]) = dialsIn h ++ e.2.filterMap Effect.dialed := by
  rw [dialsIn, effectsIn_snoc, List.filterMap_append, dialsIn]

/-- The first line asks for the host and the port. -/
structure Asked {E : Type} (C : HandlerConfig E) (h : List (Input × List Effect)) (host : String) (port : ℕ) :
    Prop where
  newline : 10 ∈ bytesIn h
  requested : C.requested (bytesIn h) = some (host, port)

/-- Nothing is looked up or dialed yet. -/
structure Undialed (h : List (Input × List Effect)) : Prop where
  lookups : lookupsIn h = []
  dials : dialsIn h = []

/-- The candidates up to the next one were dialed, in order. -/
structure Tunnel.Dialed {E : Type} (C : HandlerConfig E) (h : List (Input × List Effect)) (host : String)
    (answers : Option (List (Option Answer))) (t : Tunnel) : Prop where
  asked : Asked C h host t.port
  lookups : lookupsIn h = [answers]
  resolved : resolveEgressTarget C.allowPrivateTargets host answers = .ok t.candidates
  dials : dialsIn h = (t.candidates.take t.candidateIndex).map fun candidate => (t.port, candidate.address)

def Pinned {E : Type} (C : HandlerConfig E) (h : List (Input × List Effect)) : Stage → Prop
  | .reading buf => bytesIn h = buf ∧ 10 ∉ buf ∧ Undialed h
  | .verifying host port _ | .admitting _ host port _ | .resolving _ host port _ => Asked C h host port ∧ Undialed h
  | .tunnel t => ∃ host answers, t.Dialed C h host answers
  | .returned => (lookupsIn h).length ≤ 1 ∧ dialsIn h = []

section Step

variable {E : Type} {C : HandlerConfig E} {h : List (Input × List Effect)} {e : Input × List Effect} {host : String}
  {port : ℕ} {answers : Option (List (Option Answer))} {t t' : Tunnel} {w w' : Shared} {x x' : Conn} {input : Input}
  {effects : List Effect}

lemma Asked.snoc (ha : Asked C h host port) : Asked C (h ++ [e]) host port where
  newline := by
    rw [bytesIn_snoc]
    exact List.mem_append_left _ ha.newline
  requested := by rw [bytesIn_snoc, requested_append ha.newline, ha.requested]

lemma Undialed.snoc (hu : Undialed h) (hl : e.1.lookup = none) (hd : e.2.filterMap Effect.dialed = []) :
    Undialed (h ++ [e]) where
  lookups := by rw [lookupsIn_snoc, hu.lookups, hl]; rfl
  dials := by rw [dialsIn_snoc, hu.dials, hd]; rfl

/-- The target and the next candidate stay. -/
structure Tunnel.SameTarget (t t' : Tunnel) : Prop where
  port : t'.port = t.port
  candidates : t'.candidates = t.candidates
  candidateIndex : t'.candidateIndex = t.candidateIndex

lemma Tunnel.SameTarget.trans {t'' : Tunnel} (h : t.SameTarget t') (h' : t'.SameTarget t'') : t.SameTarget t'' :=
  ⟨h'.port.trans h.port, h'.candidates.trans h.candidates, h'.candidateIndex.trans h.candidateIndex⟩

lemma Tunnel.sameTarget_destroySocket (i : ℕ) : t.SameTarget (t.destroySocket i) := by
  unfold Tunnel.destroySocket
  split <;> exact ⟨rfl, rfl, rfl⟩

lemma Tunnel.sameTarget_destroyUpstream : t.SameTarget t.destroyUpstream := by
  unfold Tunnel.destroyUpstream
  split
  · exact ⟨rfl, rfl, rfl⟩
  · exact Tunnel.sameTarget_destroySocket _

lemma Tunnel.Dialed.snoc (hd : t.Dialed C h host answers) (hs : t.SameTarget t') (hl : e.1.lookup = none)
    (he : e.2.filterMap Effect.dialed = []) : t'.Dialed C (h ++ [e]) host answers where
  asked := hs.port ▸ hd.asked.snoc
  lookups := by rw [lookupsIn_snoc, hd.lookups, hl]; rfl
  resolved := by rw [hs.candidates, hd.resolved]
  dials := by rw [dialsIn_snoc, hd.dials, he, List.append_nil, hs.port, hs.candidates, hs.candidateIndex]

/-- The next candidate is dialed after those before it. -/
lemma Conn.dialNext_dialed (now : ℤ) (ha : Asked C h host t.port)
    (hl : lookupsIn h ++ input.lookup.toList = [answers])
    (hr : resolveEgressTarget C.allowPrivateTargets host answers = .ok t.candidates)
    (hd : dialsIn h = (t.candidates.take t.candidateIndex).map fun candidate => (t.port, candidate.address)) :
    Pinned C (h ++ [(input, (x.dialNext t now).2)]) (x.dialNext t now).1.stage := by
  have hlook : ∀ effects, lookupsIn (h ++ [(input, effects)]) = [answers] := fun effects => by
    rw [lookupsIn_snoc, hl]
  have hdrop : ∀ effects, effects.filterMap Effect.dialed = [] → t.Dialed C (h ++ [(input, effects)]) host answers :=
    fun effects hnil => ⟨ha.snoc, hlook effects, hr, by rw [dialsIn_snoc, hnil, List.append_nil, hd]⟩
  unfold Conn.dialNext
  split
  · exact ⟨host, answers, hdrop _ rfl⟩
  split
  · exact ⟨host, answers, hdrop _ rfl⟩
  · next candidate hc =>
    refine ⟨host, answers, ha.snoc, hlook _, hr, ?_⟩
    rw [dialsIn_snoc, hd]
    simp only
    rw [List.take_add_one, hc, List.map_append]
    rfl

lemma Tunnel.Dialed.next (hd : t.Dialed C h host answers) (hs : t.SameTarget t') (hl : input.lookup = none) (now : ℤ) :
    Pinned C (h ++ [(input, (x.dialNext t' now).2)]) (x.dialNext t' now).1.stage := by
  refine Conn.dialNext_dialed now (hs.port ▸ hd.asked) (by rw [hd.lookups, hl]; rfl) ?_ ?_
  · rw [hs.candidates, hd.resolved]
  · rw [hd.dials, hs.port, hs.candidates, hs.candidateIndex]

lemma dialed_quiet (hq : ∀ e ∈ effects, e.quiet = true) : effects.filterMap Effect.dialed = [] := by
  refine List.filterMap_eq_nil_iff.mpr fun e he => ?_
  have := hq e he
  cases e <;> simp_all [Effect.quiet, Effect.dialed]

lemma Undialed.returned (hu : Undialed h) (he : e.2.filterMap Effect.dialed = []) : Pinned C (h ++ [e]) .returned := by
  refine ⟨?_, by rw [dialsIn_snoc, hu.dials, he]; rfl⟩
  rw [lookupsIn_snoc, hu.lookups]
  cases e.1.lookup <;> simp

lemma Conn.Drops.undialed {reason err : String} (hd : x.Drops C input reason err) (hp : Pinned C h x.stage) :
    Undialed h := by
  have hat : ∀ {st}, x.stage = st → Pinned C h st := fun hs => hs ▸ hp
  cases hd with
  | ended _ hs => exact (hat hs).2.2
  | envelopeTimeout _ hs => exact (hat hs).2.2
  | clientError _ hs => exact (hat hs).2.2
  | verifyThrew hs => exact (hat hs).2
  | verifyRefused hs => exact (hat hs).2
  | admitThrew _ hs => exact (hat hs).2
  | admitRefused _ hs => exact (hat hs).2
  | lookRefused _ hs _ => exact (hat hs).2

/-- Of all inputs only a lookup that is waited for, and the next candidate, lead to a dial. -/
lemma Pinned.react (hp : Pinned C h x.stage) (hr : x.Reacts C w input w' x' effects) :
    Pinned C (h ++ [(input, effects)]) x'.stage := by
  have hat : ∀ {st}, x.stage = st → Pinned C h st := fun hs => hs ▸ hp
  have hquiet : ∀ {e : Input × List Effect} {t t' : Tunnel}, x.stage = .tunnel t → t.SameTarget t' →
      e.1.lookup = none → e.2.filterMap Effect.dialed = [] → Pinned C (h ++ [e]) (.tunnel t') := by
    intro e t t' hs hsame hl he
    obtain ⟨host, answers, hd⟩ := hat hs
    exact ⟨host, answers, hd.snoc hsame hl he⟩
  have hsame : ∀ {e : Input × List Effect} {st : Stage}, x.stage = st → e.1.bytes = [] ∨ st.listens = false →
      e.1.lookup = none → e.2.filterMap Effect.dialed = [] → Pinned C (h ++ [e]) st := by
    intro e st hs hb hl he
    cases st with
    | reading buf =>
      obtain ⟨hbuf, hno, hu⟩ := hat hs
      have hnone : e.1.bytes = [] := hb.resolve_right nofun
      exact ⟨by rw [bytesIn_snoc, hnone, List.append_nil, hbuf], hno, hu.snoc hl he⟩
    | verifying host port rest => exact ⟨(hat hs).1.snoc, (hat hs).2.snoc hl he⟩
    | admitting slot host port rest => exact ⟨(hat hs).1.snoc, (hat hs).2.snoc hl he⟩
    | resolving slot host port rest => exact ⟨(hat hs).1.snoc, (hat hs).2.snoc hl he⟩
    | tunnel t => exact hquiet hs ⟨rfl, rfl, rfl⟩ hl he
    | returned =>
      obtain ⟨hlook, hdial⟩ := hat hs
      exact ⟨by rw [lookupsIn_snoc, hl]; simpa using hlook, by rw [dialsIn_snoc, hdial, he]; rfl⟩
  cases hr with
  | drop hd => exact (hd.undialed hp).returned rfl
  | @readChunk buf bytes hlen _ hs =>
    obtain ⟨hbuf, hno, hu⟩ := hat hs
    subst hbuf
    rcases x.readChunk_cases C (bytesIn h ++ bytes) with ⟨reason, err, h⟩ | ⟨hnl, h⟩ | ⟨hnl, host, port, hreq, h⟩
    · rw [h]
      exact hu.returned rfl
    · rw [h]
      exact ⟨by rw [bytesIn_snoc]; rfl, hnl, hu.snoc rfl rfl⟩
    · rw [h]
      exact ⟨⟨by rw [bytesIn_snoc]; exact hnl, by rw [bytesIn_snoc]; exact hreq⟩, hu.snoc rfl rfl⟩
  | @verified slot host port rest hs =>
    exact ⟨(hat hs).1.snoc, (hat hs).2.snoc rfl rfl⟩
  | @afterAdmit slot host port rest now hs =>
    obtain ⟨ha, hu⟩ := hat hs
    unfold Conn.afterAdmit
    split
    · exact hu.returned rfl
    split
    · exact hu.returned rfl
    simp only
    split
    · exact hu.returned rfl
    · exact ⟨ha.snoc, hu.snoc rfl rfl⟩
  | lookedLate now hs _ _ => exact (hat hs).2.returned rfl
  | @looked slot host port rest answers candidates now hs hok _ =>
    obtain ⟨ha, hu⟩ := hat hs
    exact Conn.dialNext_dialed now ha (by rw [hu.lookups]; rfl) hok (by rw [hu.dials]; rfl)
  | chunkLost bytes hlive hl => exact hsame rfl (.inr hl) rfl rfl
  | ended _ _ => exact hsame rfl (.inl rfl) rfl rfl
  | clientDown => exact hsame rfl (.inl rfl) rfl rfl
  | clientError _ _ _ => exact hsame rfl (.inl rfl) rfl rfl
  | clientErrorTunnel _ _ hs => exact hquiet hs Tunnel.sameTarget_destroyUpstream rfl rfl
  | clientClosed now _ _ =>
    have hf : (x.held.map Effect.release).filterMap Effect.dialed = [] := by
      rw [List.filterMap_map]
      exact List.filterMap_eq_nil_iff.mpr fun r _ => rfl
    have hclose : ∀ {t : Tunnel}, t.SameTarget t.close := fun {t} => by
      have hcut : t.SameTarget { t with tunnelOpened := false, relaying := false, queue := [] } := ⟨rfl, rfl, rfl⟩
      exact hcut.trans Tunnel.sameTarget_destroyUpstream
    simp only [Conn.close]
    cases hs : x.stage with
    | tunnel t => exact hquiet hs hclose rfl hf
    | reading buf => exact hsame hs (.inl rfl) rfl hf
    | verifying host port rest => exact hsame hs (.inl rfl) rfl hf
    | admitting slot host port rest => exact hsame hs (.inl rfl) rfl hf
    | resolving slot host port rest => exact hsame hs (.inl rfl) rfl hf
    | returned => exact hsame hs (.inl rfl) rfl hf
  | chunk _ _ hs _ _ => exact hquiet hs ⟨rfl, rfl, rfl⟩ rfl rfl
  | @connectedLate t i now hs hi hlate => exact hquiet hs (Tunnel.sameTarget_destroySocket i) rfl rfl
  | @connected t i now hs _ _ _ =>
    obtain ⟨piped, limit, heq⟩ := Tunnel.establish_eq C t w i now
    obtain ⟨forwarded, he, hq⟩ := Tunnel.establish_effects C t w i now
    rw [heq, he]
    refine hquiet hs ⟨rfl, rfl, rfl⟩ rfl ?_
    rw [List.filterMap_append, dialed_quiet hq]
    rfl
  | failing hs _ => exact hquiet hs ⟨rfl, rfl, rfl⟩ rfl rfl
  | @upstreamError t i code now hs _ =>
    obtain ⟨host, answers, hd⟩ := hat hs
    unfold Conn.upstreamError
    simp only
    split
    · exact hquiet hs ⟨rfl, rfl, rfl⟩ rfl rfl
    split
    · exact hquiet hs ⟨rfl, rfl, rfl⟩ rfl rfl
    split
    · have hl : (Input.upstreamError i code now).lookup = none := rfl
      have hnext : t.SameTarget { t with sockets := Function.update t.sockets i .gone, upstream := none } :=
        ⟨rfl, rfl, rfl⟩
      exact hd.next hnext hl now
    · exact hquiet hs ⟨rfl, rfl, rfl⟩ rfl rfl
  | @upstreamTimeout t i now later _ hs _ =>
    obtain ⟨host, answers, hd⟩ := hat hs
    have hdown : t.SameTarget t.destroyUpstream := Tunnel.sameTarget_destroyUpstream
    unfold Conn.upstreamTimeout
    split
    · exact hsame rfl (.inl rfl) rfl rfl
    split
    · have hidled : t.SameTarget { t with gatewayCloseReason := some "idle-timeout" } := ⟨rfl, rfl, rfl⟩
      exact hquiet hs (hidled.trans Tunnel.sameTarget_destroyUpstream) rfl rfl
    split
    · have hl : (Input.upstreamTimeout i now later).lookup = none := rfl
      have hnext : t.SameTarget { t.destroyUpstream with upstream := none } :=
        hdown.trans ⟨rfl, rfl, rfl⟩
      exact hd.next hnext hl later
    · exact hquiet hs hdown rfl rfl
  | upstreamClosed hs _ => exact hquiet hs ⟨rfl, rfl, rfl⟩ rfl rfl
  | @relay t bytes queue now hs _ _ =>
    obtain ⟨b, heq⟩ := Tunnel.transform_eq C { t with queue := queue } w now bytes
    rw [heq]
    exact hquiet hs ⟨rfl, rfl, rfl⟩ rfl (dialed_quiet Tunnel.transform_quiet)
  | fromDestination now hs _ _ => exact hquiet hs ⟨rfl, rfl, rfl⟩ rfl rfl
  | payloadLimit hs _ => exact hquiet hs ⟨rfl, rfl, rfl⟩ rfl rfl

end Step

/-- The answer is an address, and public. -/
def Answer.Public (answer : Option Answer) : Prop := ∃ a, answer = some a ∧ isPublicEgressAddress a.address = true

section Run

variable {E : Type} {C : HandlerConfig E} {tr : List HandlerEvent} {s : Handlers} {x : Conn}

lemma HandlerStep.pinned (hrun : Run (HandlerStep C) .start tr s) (c : ℕ) (hx : s.conns c = some x) :
    Pinned C (historyOf tr c) x.stage :=
  (HandlerStep.every_conn (I := fun h x => Pinned C h x.stage) ⟨rfl, by simp, rfl, rfl⟩ ⟨Nat.zero_le _, rfl⟩
    (fun _ _ _ _ _ _ _ hp hr => hp.react hr) hrun c).2 x hx

/-- What was dialed, if anything was: the host itself, or the first candidates of the one lookup. -/
lemma HandlerStep.dialed (hrun : Run (HandlerStep C) .start tr s) (hpriv : C.allowPrivateTargets = false) (c : ℕ) :
    dialsIn (historyOf tr c) = [] ∨ ∃ host port, C.requested (bytesIn (historyOf tr c)) = some (host, port) ∧
      ((isIP host ≠ 0 ∧ isPublicEgressAddress host = true ∧ dialsIn (historyOf tr c) = [(port, host)]) ∨
      (isIP host = 0 ∧ ∃ (as : List Answer) (n : ℕ), lookupsIn (historyOf tr c) = [some (as.map some)] ∧
        (∀ a ∈ as, isPublicEgressAddress a.address = true) ∧
        dialsIn (historyOf tr c) = (((dedupe [] (as.map Answer.candidate)).take MAX_EGRESS_ADDRESSES).take n).map
          fun candidate => (port, candidate.address))) := by
  rw [or_iff_not_imp_left]
  intro hne
  cases hx : s.conns c with
  | none =>
    have hnil := (HandlerStep.every_conn (I := fun h x => Pinned C h x.stage) ⟨rfl, by simp, rfl, rfl⟩
      ⟨Nat.zero_le _, rfl⟩ (fun _ _ _ _ _ _ _ hp hr => hp.react hr) hrun c).1 hx
    exact absurd (by rw [hnil]; rfl) hne
  | some x =>
    have hp := HandlerStep.pinned hrun c hx
    cases hs : x.stage with
    | reading buf => exact absurd (hs ▸ hp).2.2.dials hne
    | verifying host port rest => exact absurd (hs ▸ hp).2.dials hne
    | admitting slot host port rest => exact absurd (hs ▸ hp).2.dials hne
    | resolving slot host port rest => exact absurd (hs ▸ hp).2.dials hne
    | returned => exact absurd (hs ▸ hp).2 hne
    | tunnel t =>
      obtain ⟨host, answers, hd⟩ := hs ▸ hp
      refine ⟨host, t.port, hd.asked.requested, ?_⟩
      have hres := hd.resolved
      rw [hpriv] at hres
      rcases resolveEgressTarget_ok hres with ⟨hip, hpub, hcand⟩ | ⟨hip, as, -, hans, hpub, hcand⟩
      · refine .inl ⟨hip, hpub, ?_⟩
        have hdials := hd.dials
        rw [hcand] at hdials
        cases hi : t.candidateIndex with
        | zero =>
          rw [hi] at hdials
          exact absurd hdials hne
        | succ n => simpa [hi] using hdials
      · exact .inr ⟨hip, as, t.candidateIndex, by rw [hd.lookups, hans], hpub, by rw [hd.dials, hcand]⟩

/-- **Only public addresses are dialed.** If private targets are not allowed, then in every order of inputs each
address that a connection dials is public; what it dials is the host itself, if that is an address, or a first part
of the first eight different answers of its one lookup, in order; and nothing is dialed if an answer is no address
or not public. -/
theorem dials_public (hrun : Run (HandlerStep C) .start tr s) (hpriv : C.allowPrivateTargets = false) (c : ℕ) :
    (∀ d ∈ dialsIn (historyOf tr c), isPublicEgressAddress d.2 = true) ∧
    (dialsIn (historyOf tr c) = [] ∨ ∃ host port, C.requested (bytesIn (historyOf tr c)) = some (host, port) ∧
      ((isIP host ≠ 0 ∧ dialsIn (historyOf tr c) = [(port, host)]) ∨
      (isIP host = 0 ∧ ∃ (as : List Answer) (n : ℕ), lookupsIn (historyOf tr c) = [some (as.map some)] ∧
        dialsIn (historyOf tr c) = (((dedupe [] (as.map Answer.candidate)).take MAX_EGRESS_ADDRESSES).take n).map
          fun candidate => (port, candidate.address)))) ∧
    ∀ host port answers, C.requested (bytesIn (historyOf tr c)) = some (host, port) → isIP host = 0 →
      some answers ∈ lookupsIn (historyOf tr c) → (∃ answer ∈ answers, ¬ Answer.Public answer) →
      dialsIn (historyOf tr c) = [] := by
  rcases HandlerStep.dialed hrun hpriv c with hnil | ⟨host, port, hreq, ⟨hip, hpub, hd⟩ | ⟨hip, as, n, hl, hpub, hd⟩⟩
  · exact ⟨by simp [hnil], .inl hnil, fun _ _ _ _ _ _ _ => hnil⟩
  · refine ⟨by simp [hd, hpub], .inr ⟨host, port, hreq, .inl ⟨hip, hd⟩⟩, fun host' port' _ hreq' hip' _ _ => ?_⟩
    obtain ⟨rfl, -⟩ := Prod.mk.inj (Option.some.inj (hreq.symm.trans hreq'))
    exact absurd hip' hip
  · refine ⟨fun d hmem => ?_, .inr ⟨host, port, hreq, .inr ⟨hip, as, n, hl, hd⟩⟩, ?_⟩
    · rw [hd] at hmem
      obtain ⟨candidate, hc, rfl⟩ := List.mem_map.mp hmem
      obtain ⟨a, ha, rfl⟩ := List.mem_map.mp (dedupe_subset (List.mem_of_mem_take (List.mem_of_mem_take hc)))
      exact hpub a ha
    · rintro host' port' answers - - hans ⟨answer, hanswer, hbad⟩
      rw [hl, List.mem_singleton, Option.some.injEq] at hans
      rw [hans] at hanswer
      obtain ⟨a, ha, rfl⟩ := List.mem_map.mp hanswer
      exact absurd ⟨a, rfl, hpub a ha⟩ hbad

end Run

/-- A gateway whose envelopes all ask for one name. -/
def namedConfig : HandlerConfig Unit := { plainConfig with target := fun _ => some "example.com:443" }

/-- The first candidate refuses and the second one is dialed; the answer that came twice is dialed once. -/
theorem dials_public_retry : ∃ tr s, Run (HandlerStep namedConfig) .start tr s ∧
    lookupsIn (historyOf tr 0) = [some [some ⟨"1.1.1.1", some "4"⟩, some ⟨"1.1.1.1", some "4"⟩,
      some ⟨"8.8.8.8", some "4"⟩]] ∧
    dialsIn (historyOf tr 0) = [(443, "1.1.1.1"), (443, "8.8.8.8")] ∧
    ∀ d ∈ dialsIn (historyOf tr 0), isPublicEgressAddress d.2 = true := by
  have h1 : Run (HandlerStep namedConfig) .start [.at 0 .connection [.acquire .connection]] _ :=
    Run.single (.accept rfl rfl)
  have htarget : validTarget namedConfig.targetPolicy (namedConfig.target ()) = .ok ("example.com", 443) := by
    decide +kernel
  have hread : Conn.fresh.readChunk namedConfig ([] ++ [123, 125, 10]) =
      ({ Conn.fresh with stage := .verifying "example.com" 443 [] }, []) := by
    have hnl : (10 : UInt8) ∈ [] ++ [123, 125, 10] := by decide
    simp only [Conn.readChunk, hnl, not_true, if_false, namedConfig, plainConfig] at htarget ⊢
    rw [htarget]
    rfl
  have hline : ∀ w, Conn.Reacts namedConfig w .fresh (.chunk [123, 125, 10]) w
      { Conn.fresh with stage := .verifying "example.com" 443 [] } [] := by
    intro w
    have hlen : (([123, 125, 10] : List UInt8).length : ℤ) ≤ MAX_SAFE_INTEGER := by decide
    have hr : Conn.Reacts namedConfig w .fresh (.chunk [123, 125, 10]) w
        (Conn.fresh.readChunk namedConfig ([] ++ [123, 125, 10])).1
        (Conn.fresh.readChunk namedConfig ([] ++ [123, 125, 10])).2 := .readChunk hlen rfl rfl
    rwa [hread] at hr
  obtain ⟨s2, h2, hx2, hw2⟩ := HandlerStep.next (c := 0) h1 rfl rfl (hline _)
  obtain ⟨s3, h3, hx3, hw3⟩ := HandlerStep.next h2 hx2 hw2 (.verified (s := plainSlot) rfl)
  obtain ⟨s4, h4, hx4, hw4⟩ := HandlerStep.next h3 hx3 hw3 (.afterAdmit 0 rfl)
  have hlook : resolveEgressTarget namedConfig.allowPrivateTargets "example.com"
      (some [some ⟨"1.1.1.1", some "4"⟩, some ⟨"1.1.1.1", some "4"⟩, some ⟨"8.8.8.8", some "4"⟩]) =
      .ok [⟨"1.1.1.1", "4"⟩, ⟨"8.8.8.8", "4"⟩] := by
    decide +kernel
  obtain ⟨s5, h5, hx5, hw5⟩ := HandlerStep.next h4 hx4 hw4 (.looked 0 rfl hlook rfl)
  obtain ⟨s6, h6, hx6, hw6⟩ := HandlerStep.next h5 hx5 hw5 (.failing (i := 0) rfl (by decide))
  obtain ⟨s7, h7, hx7, hw7⟩ := HandlerStep.next h6 hx6 hw6 (.upstreamError (i := 0) "ECONNREFUSED" 0 rfl rfl)
  exact ⟨_, s7, h7, by decide, by decide, (dials_public h7 rfl 0).1⟩

end ShadeTree.Gateway
