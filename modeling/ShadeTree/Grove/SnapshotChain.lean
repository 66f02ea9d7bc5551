import Mathlib.Data.List.DropRight
import ShadeTree.Grove.SnapshotRuns

/-!
# The history of a collector that is given its last snapshot

Each collection is given what the one before it published.  Nothing is lost then: the history of a snapshot is what was
counted in the last 48 hours, and of that the newest 97 samples.
-/

namespace ShadeTree.Grove.Snapshot

open ShadeTree.Lib

/-! ### Samples that are in order -/

/-- The end of a list and what passes a test change places, if all behind what passes pass too. -/
lemma filter_rtake {α : Type*} {l : List α} {P : α → Bool} (n : ℕ)
    (h : l.Pairwise fun a b => P a = true → P b = true) : (l.rtake n).filter P = (l.filter P).rtake n := by
  induction l with
  | nil => simp [List.rtake]
  | cons x l ih =>
    obtain ⟨hfirst, hrest⟩ := List.pairwise_cons.mp h
    by_cases hx : P x = true
    · -- all pass
      have hall : ∀ y ∈ x :: l, P y = true := by
        intro y hy
        rcases List.mem_cons.mp hy with rfl | hy
        · exact hx
        · exact hfirst y hy hx
      rw [List.filter_eq_self.mpr hall]
      exact List.filter_eq_self.mpr fun y hy => hall y (List.mem_of_mem_drop hy)
    · rw [List.filter_cons_of_neg hx]
      by_cases hn : n ≤ l.length
      · have hskip : (x :: l).rtake n = l.rtake n := by
          unfold List.rtake
          rw [List.length_cons, show l.length + 1 - n = l.length - n + 1 by omega, List.drop_succ_cons]
        rw [hskip]
        exact ih hrest
      · have hlen := List.length_filter_le P l
        unfold List.rtake
        rw [show (x :: l).length - n = 0 by rw [List.length_cons]; omega,
          show (l.filter P).length - n = 0 by omega, List.drop_zero, List.drop_zero, List.filter_cons_of_neg hx]

lemma rtake_rtake {α : Type*} (l : List α) {m n : ℕ} (h : m ≤ n) : (l.rtake n).rtake m = l.rtake m := by
  unfold List.rtake
  rw [List.drop_drop, List.length_drop]
  congr 1
  omega

section Ordered

variable {dateParse : DateParse} {nowMs : ℤ} {cap : ℕ} {samples : List Sample}

variable (dateParse nowMs) in
/-- The time of a sample is near enough to be read. -/
def near (s : Sample) : Bool :=
  decide (nowMs - 48 * HOUR_MS ≤ timeOf dateParse s ∧ timeOf dateParse s ≤ nowMs + 5 * MINUTE_MS)

/-- Samples that are good are read as they are. -/
lemma filterMap_readSample (hd : ReadsIso dateParse) (hgood : ∀ s ∈ samples, s.Good dateParse) :
    (samples.map Sample.value).filterMap (readSample dateParse nowMs) = samples.filter (near dateParse nowMs) := by
  induction samples with
  | nil => rfl
  | cons s samples ih =>
    have hread := @readSample_value dateParse nowMs s hd (hgood s List.mem_cons_self)
    have hrest := ih fun t ht => hgood t (List.mem_cons_of_mem _ ht)
    by_cases hnear : nowMs - 48 * HOUR_MS ≤ timeOf dateParse s ∧ timeOf dateParse s ≤ nowMs + 5 * MINUTE_MS
    · have hpos : near dateParse nowMs s = true := decide_eq_true hnear
      rw [if_pos hnear] at hread
      rw [List.map_cons, List.filterMap_cons_some hread, List.filter_cons_of_pos hpos, hrest]
    · have hneg : ¬near dateParse nowMs s = true := fun h => hnear (of_decide_eq_true h)
      rw [if_neg hnear] at hread
      rw [List.map_cons, List.filterMap_cons_none hread, List.filter_cons_of_neg hneg, hrest]

/-- Samples that are in the order of their times stay as they are. -/
lemma scrubSamples_of_sorted (hd : ReadsIso dateParse) (hgood : ∀ s ∈ samples, s.Good dateParse)
    (hsorted : samples.Pairwise fun a b => timeOf dateParse a < timeOf dateParse b) (hcap : 1 ≤ cap) :
    scrubSamples dateParse nowMs cap (samples.map Sample.value) =
      (samples.filter (near dateParse nowMs)).rtake cap := by
  have hpair : (samples.filter (near dateParse nowMs)).Pairwise fun a b => timeOf dateParse a < timeOf dateParse b :=
    hsorted.sublist List.filter_sublist
  have hkeys : (((samples.filter (near dateParse nowMs)).map fun s => (s.at_, s)).map Prod.fst).Nodup := by
    rw [List.map_map]
    refine List.pairwise_map.mpr (hpair.imp fun {a b} hab heq => ?_)
    have hsame : timeOf dateParse a = timeOf dateParse b := by
      unfold timeOf
      rw [show a.at_ = b.at_ from heq]
    omega
  have hby : byTime dateParse nowMs (samples.map Sample.value) = samples.filter (near dateParse nowMs) := by
    unfold byTime
    rw [filterMap_readSample hd hgood, OrderedMap.entries_ofList hkeys, List.map_map]
    exact List.map_id _
  have hsort : sortedSamples dateParse nowMs (samples.map Sample.value) = samples.filter (near dateParse nowMs) := by
    unfold sortedSamples
    rw [hby]
    exact List.mergeSort_of_pairwise (hpair.imp fun hab => decide_eq_true hab.le)
  rw [scrubSamples_eq, hsort, max_eq_right hcap]
  rfl

end Ordered

/-! ### What a published snapshot shows -/

section Shown

variable {X : Sections} {K : GroveKey} {dateParse : DateParse} {toLowerCase : String → String} {o : Options}
  {directory : Option Value} {p q : PublicSnapshot} {v : Value} {ms : ℤ}

/-- The sample that a snapshot adds. -/
def PublicSnapshot.own (p : PublicSnapshot) : Sample := ⟨p.observedAt, p.announced⟩

/-- What was published may be carried on under its network and cadence. -/
lemma compatible_attested (h : attest X K p.fields = some v)
    (hschema : p.schema = GROVE_SCHEMA ∨ p.schema = GROVE_SCHEMA_V2) :
    compatible X K p.network p.cadenceMinutes (some v) = true := by
  obtain ⟨-, -, -, -, -, hverified⟩ := attest_verified h
  have hone : (isText GROVE_SCHEMA (optionalGet "schema" (some v)) ||
      isText GROVE_SCHEMA_V2 (optionalGet "schema" (some v))) = true := by
    rw [attested_get h (by decide), show (Json.obj p.fields).get "schema" = some (.str p.schema) from
      fields_get p (by decide) (by decide)]
    rcases hschema with h | h
    · rw [h]
      decide
    · rw [h]
      decide
  have hnetwork : isText p.network (optionalGet "network" (some v)) = true := by
    rw [attested_get h (by decide)]
    exact isText_iff.mpr (fields_get p (by decide) (by decide))
  have hsource : optionalGet "source" (some v) = some p.source := by
    rw [attested_get h (by decide)]
    exact fields_get p (by decide) (by decide)
  have hcadence : isNumber p.cadenceMinutes (optionalGet "cadenceMinutes" (some p.source)) = true :=
    isNumber_number p.cadenceMinutes
  unfold compatible
  dsimp only
  rw [hone, hnetwork, hsource, hcadence, hverified]
  rfl

/-- What is carried on of a published snapshot. -/
lemma scrub_attested (hd : ReadsIso dateParse) (h : attest X K q.fields = some v)
    (hgood : ∀ s ∈ q.history, s.Good dateParse)
    (hsorted : q.history.Pairwise fun a b => timeOf dateParse a < timeOf dateParse b) :
    scrubGroveHistory dateParse (some v) ms GROVE_HISTORY_CAP =
      (q.history.filter (near dateParse ms)).rtake GROVE_HISTORY_CAP := by
  have hhistory : optionalGet "history" (some v) = some (.arr (q.history.map Sample.value)) := by
    rw [attested_get h (by decide)]
    exact fields_get q (by decide) (by decide)
  unfold scrubGroveHistory
  rw [hhistory]
  exact scrubSamples_of_sorted hd hgood hsorted (by decide)

end Shown

/-! ### A chain of collections -/

section Chain

variable (X : Sections) (K : GroveKey) (dateParse : DateParse) (toLowerCase : String → String) (network : String)

/-- One collection of a network that is given what was published last, at a later time than any before it. -/
inductive ChainStep : List (PublicSnapshot × Value) → PublicSnapshot × Value → List (PublicSnapshot × Value) →
    Prop where
  | collect {s : List (PublicSnapshot × Value)} {fleet : FleetResult} {c : Collection} {relay : Option Value}
      {p : PublicSnapshot} {v : Value} :
      c.previous = s.getLast?.map Prod.snd → p.network = network →
      (∀ e ∈ s, timeOf dateParse e.1.own < timeOf dateParse p.own) → relayOf X fleet c = some relay →
      buildPublicGroveSnapshot X K dateParse toLowerCase fleet.directory (c.options relay) = .ok p →
      collectPublicGrove X K dateParse toLowerCase fleet c = .ok v →
      ChainStep s (p, v) (s ++ [(p, v)])

/-- The newest samples of what was observed, as far as they are near. -/
def kept (s : List (PublicSnapshot × Value)) (ms : ℤ) : List Sample :=
  ((s.map fun e => e.1.own).filter (near dateParse ms)).rtake GROVE_HISTORY_CAP

/-- What holds of the snapshots of a chain. -/
structure Chained (s : List (PublicSnapshot × Value)) : Prop where
  sound : ∀ e ∈ s, ∃ ms, SnapshotSound dateParse (s.map Prod.fst) e.1 ms
  attested : ∀ e ∈ s, attest X K e.1.fields = some e.2
  network : ∀ e ∈ s, e.1.network = network
  cadence : ∀ e ∈ s, e.1.cadenceMinutes = 15
  schema : ∀ e ∈ s, e.1.schema = GROVE_SCHEMA ∨ e.1.schema = GROVE_SCHEMA_V2
  sorted : s.Pairwise fun e f => timeOf dateParse e.1.own < timeOf dateParse f.1.own
  history : ∀ before e after, s = before ++ e :: after →
    e.1.history = kept dateParse (before ++ [e]) (timeOf dateParse e.1.own)

variable {X K dateParse toLowerCase network} {s t : List (PublicSnapshot × Value)} {e : PublicSnapshot × Value}
  {trace : List (PublicSnapshot × Value)}

/-- A published snapshot is not forged. -/
lemma unforged_attested {q : PublicSnapshot} {v : Value} {l : List PublicSnapshot}
    (h : attest X K q.fields = some v) (hq : q ∈ l) : Unforged X K l (some v) := by
  obtain ⟨payload, hpayload, -, -, hsame, -⟩ := attest_verified h
  intro _ payload' hpayload'
  obtain rfl := Option.some.inj (hsame.symm.trans hpayload')
  exact ⟨q, hq, payload, hpayload, rfl⟩

lemma kept_snoc (hown : near dateParse (timeOf dateParse e.1.own) e.1.own = true) :
    kept dateParse (s ++ [e]) (timeOf dateParse e.1.own) =
      ((s.map fun f => f.1.own).filter (near dateParse (timeOf dateParse e.1.own))).rtake 96 ++ [e.1.own] := by
  unfold kept
  rw [List.map_append, List.filter_append, List.map_singleton, List.filter_singleton, hown, cond_true]
  exact List.rtake_concat_succ _ _ _

/-- What an earlier snapshot kept is enough for a later one. -/
lemma kept_later {samples : List Sample} {earlier later : ℤ}
    (hsorted : samples.Pairwise fun a b => timeOf dateParse a < timeOf dateParse b)
    (hle : ∀ a ∈ samples, timeOf dateParse a ≤ earlier) (hlt : earlier < later) :
    ((((samples.filter (near dateParse earlier)).rtake GROVE_HISTORY_CAP).filter (near dateParse later)).rtake
      GROVE_HISTORY_CAP) = (samples.filter (near dateParse later)).rtake GROVE_HISTORY_CAP := by
  have hclosed : (samples.filter (near dateParse earlier)).Pairwise
      fun a b => near dateParse later a = true → near dateParse later b = true := by
    refine (hsorted.sublist List.filter_sublist).imp_of_mem fun {a b} _ hb hab ha => ?_
    have hb' := hle b (List.mem_of_mem_filter hb)
    have ha' := of_decide_eq_true ha
    exact decide_eq_true (by unfold MINUTE_MS at *; omega)
  have hboth : (samples.filter (near dateParse earlier)).filter (near dateParse later) =
      samples.filter (near dateParse later) := by
    rw [List.filter_filter]
    refine List.filter_congr fun a ha => ?_
    -- what the later one reads the earlier one read
    cases hlater : near dateParse later a with
    | false => rfl
    | true =>
      have hnear := of_decide_eq_true hlater
      have ha' := hle a ha
      exact decide_eq_true (by unfold MINUTE_MS at *; omega)
  rw [filter_rtake _ hclosed, rtake_rtake _ le_rfl, hboth]

section Step

variable {fleet : FleetResult} {c : Collection} {relay : Option Value} {p : PublicSnapshot} {v : Value} {ms : ℤ}

lemma Chained.own_good (hs : Chained X K dateParse network s) (hd : ReadsIso dateParse) :
    ∀ a ∈ s.map fun e => e.1.own, a.Good dateParse := by
  intro a ha
  obtain ⟨e, he, rfl⟩ := List.mem_map.mp ha
  obtain ⟨ms, hsound⟩ := hs.sound e he
  have htime : timeOf dateParse e.1.own = ms := timeOf_iso hd hsound.observed
  exact ⟨by rw [htime]; exact hsound.observed, hsound.announced⟩

lemma Chained.own_sorted (hs : Chained X K dateParse network s) :
    (s.map fun e => e.1.own).Pairwise fun a b => timeOf dateParse a < timeOf dateParse b :=
  List.pairwise_map.mpr hs.sorted

/-- What a collection of a chain reads of the snapshot before. -/
lemma Chained.carried (hd : ReadsIso dateParse) (hs : Chained X K dateParse network s)
    (hprevious : c.previous = s.getLast?.map Prod.snd)
    (hlater : ∀ e ∈ s, timeOf dateParse e.1.own < ms) :
    scrubGroveHistory dateParse (if compatible X K network 15 c.previous then c.previous else none) ms
      GROVE_HISTORY_CAP = ((s.map fun e => e.1.own).filter (near dateParse ms)).rtake GROVE_HISTORY_CAP := by
  rcases List.eq_nil_or_concat s with rfl | ⟨before, e, rfl⟩
  · rw [show c.previous = none from hprevious, ite_self]
    rfl
  rw [List.concat_eq_append] at *
  have he : e ∈ before ++ [e] := List.mem_append_right _ (List.mem_singleton_self e)
  have hprev : c.previous = some e.2 := by
    rw [hprevious, List.getLast?_append]
    rfl
  obtain ⟨ms', hsound⟩ := hs.sound e he
  have hcompat : compatible X K network 15 (some e.2) = true := by
    have h := compatible_attested (hs.attested e he) (hs.schema e he)
    rwa [hs.network e he, hs.cadence e he] at h
  rw [hprev, if_pos hcompat, scrub_attested hd (hs.attested e he) hsound.good hsound.sorted,
    hs.history before e [] rfl]
  refine kept_later hs.own_sorted (fun a ha => ?_) (hlater e he)
  obtain ⟨f, hf, rfl⟩ := List.mem_map.mp ha
  rcases List.mem_append.mp hf with hf | hf
  · exact ((List.pairwise_append.mp hs.sorted).2.2 f hf e (List.mem_singleton_self e)).le
  · rw [List.mem_singleton.mp hf]

/-- One more collection. -/
lemma Chained.step (hd : ReadsIso dateParse) (hs : Chained X K dateParse network s)
    (h : ChainStep X K dateParse toLowerCase network s e t) : Chained X K dateParse network t := by
  cases h with
  | @collect fleet c relay p v hprevious hnetwork hlater hrelay hbuild hcollect =>
  have hattest := collect_attests hrelay hbuild hcollect
  have hunforged : Unforged X K (s.map Prod.fst) c.previous := by
    rw [hprevious]
    cases hlast : s.getLast? with
    | none => exact fun h => absurd h Bool.false_ne_true
    | some f =>
      have hf := List.mem_of_getLast? hlast
      exact unforged_attested (hs.attested f hf) (List.mem_map_of_mem hf)
  obtain ⟨ms, hsound⟩ := build_sound hd (fun q hq => by
    obtain ⟨f, hf, rfl⟩ := List.mem_map.mp hq
    exact hs.sound f hf) hunforged hbuild
  obtain ⟨-, ms', -, -, -, hobserved, hschema, -, hcadence, -, -, hhistory, -⟩ := build_ok hbuild
  have htime : timeOf dateParse p.own = ms := timeOf_iso hd hsound.observed
  have htime' : timeOf dateParse p.own = ms' := timeOf_iso hd hobserved
  obtain rfl : ms' = ms := htime'.symm.trans htime
  have hold : ∀ f ∈ s, timeOf dateParse f.1.own < ms' := fun f hf => htime ▸ hlater f hf
  have hcarried := hs.carried hd hprevious hold
  have hsamples : samplesOf X K dateParse p.network (c.options relay) ms' ⟨p.observedAt, p.announced⟩ =
      ((s.map fun f => f.1.own).filter (near dateParse ms')).rtake GROVE_HISTORY_CAP ++ [p.own] := by
    rw [← hcarried, hnetwork]
    rfl
  -- the samples are among those observed, so they are good and in order
  have hsub : (((s.map fun f => f.1.own).filter (near dateParse ms')).rtake GROVE_HISTORY_CAP ++ [p.own]).Sublist
      ((s.map fun f => f.1.own) ++ [p.own]) :=
    ((List.drop_sublist _ _).trans List.filter_sublist).append_right _
  have hown : p.own.Good dateParse := ⟨by rw [htime]; exact hobserved, hsound.announced⟩
  have hnear : near dateParse (timeOf dateParse p.own) p.own = true :=
    decide_eq_true (by unfold HOUR_MS MINUTE_MS; omega)
  have hall : ((s.map fun f => f.1.own) ++ [p.own]).Pairwise fun a b => timeOf dateParse a < timeOf dateParse b := by
    refine List.pairwise_append.mpr ⟨hs.own_sorted, List.pairwise_singleton _ _, fun a ha b hb => ?_⟩
    obtain ⟨f, hf, rfl⟩ := List.mem_map.mp ha
    rw [List.mem_singleton.mp hb]
    exact hlater f hf
  have hgood : ∀ a ∈ (s.map fun f => f.1.own) ++ [p.own], a.Good dateParse := by
    intro a ha
    rcases List.mem_append.mp ha with ha | ha
    · exact hs.own_good hd a ha
    · rw [List.mem_singleton.mp ha]
      exact hown
  have hkeep : (((s.map fun f => f.1.own).filter (near dateParse ms')).rtake GROVE_HISTORY_CAP).filter
      (near dateParse ms') = ((s.map fun f => f.1.own).filter (near dateParse ms')).rtake GROVE_HISTORY_CAP :=
    List.filter_eq_self.mpr fun a ha => (List.mem_filter.mp (List.mem_of_mem_drop ha)).2
  have hnew : p.history = kept dateParse (s ++ [(p, v)]) (timeOf dateParse p.own) := by
    rw [hhistory, hsamples, scrubSamples_of_sorted hd (fun a ha => hgood a (hsub.subset ha)) (hall.sublist hsub)
      (by decide), List.filter_append, kept_snoc hnear, hkeep]
    rw [htime] at hnear ⊢
    rw [List.filter_singleton, hnear, cond_true, show GROVE_HISTORY_CAP = 96 + 1 from rfl, List.rtake_concat_succ,
      rtake_rtake _ (by decide)]
  have hboth : ∀ {P : PublicSnapshot × Value → Prop}, (∀ f ∈ s, P f) → P (p, v) → ∀ f ∈ s ++ [(p, v)], P f := by
    intro P hs hp f hf
    rcases List.mem_append.mp hf with hf | hf
    · exact hs f hf
    · rw [List.mem_singleton.mp hf]
      exact hp
  constructor
  case sound =>
    rw [List.map_append, List.map_singleton]
    refine hboth (fun f hf => ?_) ⟨ms', hsound⟩
    obtain ⟨ms₁, hf⟩ := hs.sound f hf
    exact ⟨ms₁, hf.mono fun q hq => List.mem_append_left _ hq⟩
  case attested => exact hboth hs.attested hattest
  case network => exact hboth hs.network hnetwork
  case cadence => exact hboth hs.cadence hcadence
  case schema =>
    refine hboth hs.schema ?_
    rw [hschema]
    split
    · exact .inl rfl
    · exact .inr rfl
  case sorted =>
    refine List.pairwise_append.mpr ⟨hs.sorted, List.pairwise_singleton _ _, fun f hf g hg => ?_⟩
    rw [List.mem_singleton.mp hg]
    exact hlater f hf
  case history =>
    intro before f after heq
    rcases List.eq_nil_or_concat after with rfl | ⟨after, g, rfl⟩
    · obtain ⟨rfl, hf⟩ := List.append_inj' heq rfl
      obtain rfl := List.singleton_inj.mp hf
      exact hnew
    · rw [List.concat_eq_append, ← List.cons_append, ← List.append_assoc] at heq
      exact hs.history before f after (List.append_inj' heq rfl).1

end Step

lemma chain_run (hd : ReadsIso dateParse) (hrun : Run (ChainStep X K dateParse toLowerCase network) [] trace s) :
    s = trace ∧ Chained X K dateParse network s := by
  induction hrun with
  | nil =>
    refine ⟨rfl, ?_⟩
    constructor
    case sorted => exact .nil
    case history =>
      intro before e after h
      simp at h
    all_goals
      intro e he
      cases he
  | snoc _ hstep ih =>
    refine ⟨?_, ih.2.step hd hstep⟩
    cases hstep with
    | collect hprevious hnetwork hlater hrelay hbuild hcollect => rw [← ih.1]

/-- If each collection is given what the one before it published, nothing is lost: the history of a snapshot is the
newest of the samples that were observed within 48 hours, and its node-hours are theirs. -/
theorem history_complete (hd : ReadsIso dateParse)
    (hrun : Run (ChainStep X K dateParse toLowerCase network) [] trace s)
    {before after : List (PublicSnapshot × Value)} {p : PublicSnapshot} {v : Value}
    (htrace : trace = before ++ (p, v) :: after) :
    p.history = kept dateParse (before ++ [(p, v)]) (timeOf dateParse p.own) ∧
      p.announcedNodeHours = aggregateAnnouncedNodeHours dateParse
        (kept dateParse (before ++ [(p, v)]) (timeOf dateParse p.own)) (timeOf dateParse p.own) := by
  obtain ⟨rfl, hchained⟩ := chain_run hd hrun
  have hhistory := hchained.history before (p, v) after htrace
  obtain ⟨ms, hsound⟩ := hchained.sound (p, v) (htrace ▸ List.mem_append_right _ List.mem_cons_self)
  have htime : timeOf dateParse p.own = ms := timeOf_iso hd hsound.observed
  refine ⟨hhistory, ?_⟩
  rw [← hhistory, htime]
  exact hsound.hours

end Chain

/-! ### A second snapshot -/

def laterFleet : FleetResult := ⟨true, true, true, some (.obj [("gateways", .arr [.null, .null])])⟩

def laterCollection (v : Value) : Collection := ⟨some v, "sepolia", 1767227000000, none, none⟩

def laterOptions (v : Value) : Options := (laterCollection v).options none

def laterSnapshot : PublicSnapshot where
  schema := GROVE_SCHEMA
  network := "sepolia"
  observedAt := "2026-01-01T00:15:00.000Z"
  cadenceMinutes := 15
  announced := 2
  announcedNodeHours := some 0
  history := [sampleSnapshot.own, ⟨"2026-01-01T00:15:00.000Z", 2⟩]
  relay := none
  onchain := none

lemma later_observed : iso 1767226500000 = some "2026-01-01T00:15:00.000Z" := by decide

lemma sample_time : timeOf isoParse sampleSnapshot.own = 1767225600000 := timeOf_iso isoParse_reads sample_observed

lemma later_time : timeOf isoParse laterSnapshot.own = 1767226500000 := timeOf_iso isoParse_reads later_observed

lemma sample_good : sampleSnapshot.own.Good isoParse := ⟨by rw [sample_time]; exact sample_observed, by decide⟩

lemma later_good : laterSnapshot.own.Good isoParse := ⟨by rw [later_time]; exact later_observed, by decide⟩

lemma sample_near : near isoParse 1767226500000 sampleSnapshot.own = true :=
  decide_eq_true (by rw [sample_time]; decide)

lemma later_near : near isoParse 1767226500000 laterSnapshot.own = true :=
  decide_eq_true (by rw [later_time]; decide)

lemma later_history : scrubSamples isoParse 1767226500000 GROVE_HISTORY_CAP
    (([sampleSnapshot.own] ++ [laterSnapshot.own]).map Sample.value) = [sampleSnapshot.own, laterSnapshot.own] := by
  have hgood : ∀ s ∈ [sampleSnapshot.own] ++ [laterSnapshot.own], s.Good isoParse := by
    intro s hs
    rcases List.mem_append.mp hs with hs | hs
    · exact List.mem_singleton.mp hs ▸ sample_good
    · exact List.mem_singleton.mp hs ▸ later_good
  have hsorted : ([sampleSnapshot.own] ++ [laterSnapshot.own]).Pairwise
      fun a b => timeOf isoParse a < timeOf isoParse b := by
    refine List.pairwise_pair.mpr ?_
    rw [sample_time, later_time]
    decide
  rw [scrubSamples_of_sorted isoParse_reads hgood hsorted (by decide), List.filter_append, List.filter_singleton,
    List.filter_singleton, sample_near, later_near]
  rfl

lemma later_hours : aggregateAnnouncedNodeHours isoParse [sampleSnapshot.own, laterSnapshot.own] 1767226500000 =
    some 0 := by
  unfold aggregateAnnouncedNodeHours
  rw [if_neg (by decide)]
  simp only [nodeMs, sample_time, later_time]
  decide

lemma later_built {v : Value} (hv : attest noSections sampleKey sampleSnapshot.fields = some v) :
    buildPublicGroveSnapshot noSections sampleKey isoParse id laterFleet.directory (laterOptions v) =
      .ok laterSnapshot := by
  have hnetwork : publicNetwork id (laterOptions v).network = "sepolia" := by
    show publicNetwork id "sepolia" = "sepolia"
    decide
  have hcompat : compatible noSections sampleKey "sepolia" (laterOptions v).cadenceMinutes
      (laterOptions v).previous = true := compatible_attested hv (.inl rfl)
  have hcarried : scrubGroveHistory isoParse (if compatible noSections sampleKey
      (publicNetwork id (laterOptions v).network) (laterOptions v).cadenceMinutes (laterOptions v).previous then
        (laterOptions v).previous else none) 1767226500000 GROVE_HISTORY_CAP = [sampleSnapshot.own] := by
    rw [hnetwork, if_pos hcompat]
    refine (scrub_attested isoParse_reads hv (fun s hs => List.mem_singleton.mp hs ▸ sample_good)
      (List.pairwise_singleton _ _)).trans ?_
    show ([sampleSnapshot.own].filter (near isoParse 1767226500000)).rtake GROVE_HISTORY_CAP = _
    rw [List.filter_singleton, sample_near]
    rfl
  have hobserved : (laterOptions v).observedAt / ((laterOptions v).cadenceMinutes * MINUTE_MS) *
      ((laterOptions v).cadenceMinutes * MINUTE_MS) = 1767226500000 := by
    show (1767227000000 : ℤ) / (15 * MINUTE_MS) * (15 * MINUTE_MS) = 1767226500000
    decide
  have hcadence : ¬((laterOptions v).cadenceMinutes < 5 ∨ 60 < (laterOptions v).cadenceMinutes) := by
    show ¬((15 : ℤ) < 5 ∨ (60 : ℤ) < 15)
    decide
  unfold buildPublicGroveSnapshot
  rw [show optionalGet "gateways" laterFleet.directory = some (.arr [.null, .null]) from rfl]
  dsimp only
  rw [if_neg hcadence, hobserved, later_observed]
  dsimp only
  rw [hcarried, show [(Json.null : Value), .null].length = 2 from rfl,
    show (⟨"2026-01-01T00:15:00.000Z", 2⟩ : Sample) = laterSnapshot.own from rfl, later_history, hnetwork, later_hours]
  rfl

/-- Two collections, of which the second carries on the first. -/
theorem history_complete_second : ∃ v v', Run (ChainStep noSections sampleKey isoParse id "sepolia") []
    [(sampleSnapshot, v), (laterSnapshot, v')] [(sampleSnapshot, v), (laterSnapshot, v')] ∧
    laterSnapshot.history = kept isoParse [(sampleSnapshot, v), (laterSnapshot, v')] 1767226500000 := by
  obtain ⟨v, hv⟩ : ∃ v, attest noSections sampleKey sampleSnapshot.fields = some v := ⟨_, rfl⟩
  obtain ⟨v', hv'⟩ : ∃ v, attest noSections sampleKey laterSnapshot.fields = some v := ⟨_, rfl⟩
  have hfirst : collectPublicGrove noSections sampleKey isoParse id sampleFleet sampleCollection = .ok v :=
    collect_ok rfl rfl sample_built hv
  have hsecond : collectPublicGrove noSections sampleKey isoParse id laterFleet (laterCollection v) = .ok v' :=
    collect_ok rfl rfl (later_built hv) hv'
  have hlater : ∀ e ∈ [(sampleSnapshot, v)], timeOf isoParse e.1.own < timeOf isoParse laterSnapshot.own := by
    intro e he
    rw [List.mem_singleton.mp he, sample_time, later_time]
    decide
  have hrun : Run (ChainStep noSections sampleKey isoParse id "sepolia") [] [(sampleSnapshot, v), (laterSnapshot, v')]
      [(sampleSnapshot, v), (laterSnapshot, v')] :=
    (Run.single (.collect rfl rfl (fun e he => by cases he) rfl sample_built hfirst)).snoc
      (.collect rfl rfl hlater rfl (later_built hv) hsecond)
  obtain ⟨hkept, -⟩ := history_complete isoParse_reads hrun
    (show [(sampleSnapshot, v), (laterSnapshot, v')] = [(sampleSnapshot, v)] ++ (laterSnapshot, v') :: [] from rfl)
  rw [later_time] at hkept
  exact ⟨v, v', hrun, hkept⟩

end ShadeTree.Grove.Snapshot
