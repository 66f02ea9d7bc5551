import ShadeTree.Grove.Snapshot
import ShadeTree.Lib.Run

/-!
# The history of the grove over all collections

What a collector carries on was read from a public file.  It is believed only under the collector's own signature, so
every sample that is published, in whatever order files are put back, is what some collection of the same network and
cadence observed.  The site accepts what is published.
-/

namespace ShadeTree.Grove.Snapshot

open ShadeTree.Lib

/-! ### Reading samples -/

/-- `Date.parse` reads what `toISOString` writes. -/
def ReadsIso (dateParse : DateParse) : Prop :=
  ∀ ms text, iso ms = some text → dateParse (some (.str text)) = some ms

section Samples

variable {dateParse : DateParse} {nowMs : ℤ} {cap : ℕ} {s t : Sample} {raws : List Value} {raw : Value}

/-- A sample whose time is written as `toISOString` writes it and whose count is safe. -/
def Sample.Good (dateParse : DateParse) (s : Sample) : Prop :=
  iso (timeOf dateParse s) = some s.at_ ∧ s.announced ≤ 100000

lemma timeOf_iso (hd : ReadsIso dateParse) {ms : ℤ} (h : iso ms = some s.at_) : timeOf dateParse s = ms := by
  unfold timeOf
  rw [hd ms s.at_ h]
  rfl

lemma safeCount_eq_some {v : Option Value} {n : ℕ} :
    safeCount v = some n ↔ v.bind Value.asInteger = some (n : ℤ) ∧ n ≤ 100000 := by
  unfold safeCount
  cases v.bind Value.asInteger with
  | none => simp
  | some m =>
    simp only [Option.ite_none_right_eq_some, Option.some.injEq]
    omega

lemma asInteger_number (n : ℤ) : (number n).asInteger = some n := Decimal.toInt?_ofInt n

lemma safeCount_number (n : ℕ) (h : n ≤ 100000) : safeCount (some (number n)) = some n :=
  safeCount_eq_some.mpr ⟨asInteger_number n, h⟩

/-- What is read of a sample that is not trusted. -/
lemma readSample_some (hd : ReadsIso dateParse) (h : readSample dateParse nowMs raw = some s) :
    s.Good dateParse ∧ dateParse (raw.get "at") = some (timeOf dateParse s) ∧
      (raw.get "announced").bind Value.asInteger = some (s.announced : ℤ) ∧
      nowMs - 48 * HOUR_MS ≤ timeOf dateParse s ∧ timeOf dateParse s ≤ nowMs + 5 * MINUTE_MS := by
  unfold readSample at h
  obtain ⟨atMs, hat, h⟩ := Option.bind_eq_some_iff.mp h
  obtain ⟨announced, hcount, h⟩ := Option.bind_eq_some_iff.mp h
  split at h
  · next hwindow =>
    obtain ⟨text, hiso, h⟩ := Option.bind_eq_some_iff.mp h
    obtain rfl := Option.some.inj h
    have htime := timeOf_iso (s := ⟨text, announced⟩) hd hiso
    obtain ⟨hint, hle⟩ := safeCount_eq_some.mp hcount
    refine ⟨⟨by rw [htime]; exact hiso, hle⟩, by rw [htime]; exact hat, hint, ?_⟩
    rw [htime]
    exact hwindow
  · cases h

/-- A good sample is read back, if its time is near enough. -/
lemma readSample_value (hd : ReadsIso dateParse) (h : s.Good dateParse) :
    readSample dateParse nowMs s.value =
      if nowMs - 48 * HOUR_MS ≤ timeOf dateParse s ∧ timeOf dateParse s ≤ nowMs + 5 * MINUTE_MS then some s
      else none := by
  have hat : dateParse (s.value.get "at") = some (timeOf dateParse s) := hd _ _ h.1
  have hcount : safeCount (s.value.get "announced") = some s.announced := safeCount_number _ h.2
  unfold readSample
  simp only [hat, hcount, h.1, Option.bind_eq_bind, Option.bind_some]

lemma Sample.Good.eq_of_time (hs : s.Good dateParse) (ht : t.Good dateParse)
    (h : timeOf dateParse s = timeOf dateParse t) : s.at_ = t.at_ := by
  have := hs.1
  rw [h, ht.1] at this
  exact (Option.some.inj this).symm

variable (dateParse nowMs) in
/-- The samples by their time, before they are sorted. -/
def byTime (raws : List Value) : List Sample :=
  (OrderedMap.ofList ((raws.filterMap (readSample dateParse nowMs)).map fun s => (s.at_, s))).entries.map Prod.snd

lemma mem_byTime : s ∈ byTime dateParse nowMs raws ↔
    ((raws.filterMap (readSample dateParse nowMs)).reverse.find? fun t => t.at_ = s.at_) = some s := by
  unfold byTime
  set l := raws.filterMap (readSample dateParse nowMs)
  have hget : ∀ k, (OrderedMap.ofList (l.map fun s => (s.at_, s))).get k = l.reverse.find? fun t => t.at_ = k := by
    intro k
    rw [OrderedMap.get_ofList, ← List.map_reverse, List.find?_map, Option.map_map]
    exact Option.map_id' ..
  constructor
  · intro h
    obtain ⟨⟨k, s'⟩, hmem, rfl⟩ := List.mem_map.mp h
    have hfound := hget k
    rw [OrderedMap.get_eq_some.mpr hmem] at hfound
    have hk : s'.at_ = k := by simpa using List.find?_some hfound.symm
    rw [← hk] at hfound
    exact hfound.symm
  · intro h
    refine List.mem_map.mpr ⟨(s.at_, s), OrderedMap.get_eq_some.mp ?_, rfl⟩
    rw [hget, h]

lemma mem_byTime_read (h : s ∈ byTime dateParse nowMs raws) :
    ∃ raw ∈ raws, readSample dateParse nowMs raw = some s := by
  have hmem := List.mem_of_find?_eq_some (mem_byTime.mp h)
  exact List.mem_filterMap.mp (List.mem_reverse.mp hmem)

/-- No time occurs twice. -/
lemma byTime_nodup (hd : ReadsIso dateParse) (raws : List Value) :
    (byTime dateParse nowMs raws).Pairwise fun a b => timeOf dateParse a ≠ timeOf dateParse b := by
  set m := OrderedMap.ofList ((raws.filterMap (readSample dateParse nowMs)).map fun s => (s.at_, s)) with hm
  have hkey : ∀ e ∈ m.entries, e.1 = e.2.at_ ∧ e.2.Good dateParse := by
    rintro ⟨k, s⟩ he
    have hmem : s ∈ byTime dateParse nowMs raws := List.mem_map_of_mem he
    obtain ⟨raw, -, hraw⟩ := mem_byTime_read hmem
    refine ⟨?_, (readSample_some hd hraw).1⟩
    have hget := OrderedMap.get_eq_some.mpr he
    rw [hm, OrderedMap.get_ofList, ← List.map_reverse, List.find?_map, Option.map_map] at hget
    obtain ⟨s', hs', rfl⟩ := Option.map_eq_some_iff.mp hget
    have := List.find?_some hs'
    exact (by simpa using this : s'.at_ = k).symm
  have hpair : m.entries.Pairwise fun a b => timeOf dateParse a.2 ≠ timeOf dateParse b.2 := by
    refine (List.pairwise_map.mp m.nodup).imp_of_mem ?_
    intro a b ha hb hab heq
    refine hab ?_
    rw [(hkey a ha).1, (hkey b hb).1]
    exact (hkey a ha).2.eq_of_time (hkey b hb).2 heq
  exact List.pairwise_map.mpr hpair

variable (dateParse nowMs) in
/-- The samples in the order of their times. -/
def sortedSamples (raws : List Value) : List Sample :=
  (byTime dateParse nowMs raws).mergeSort fun a b => timeOf dateParse a ≤ timeOf dateParse b

lemma scrubSamples_eq : scrubSamples dateParse nowMs cap raws =
    (sortedSamples dateParse nowMs raws).drop ((sortedSamples dateParse nowMs raws).length - max 1 cap) := rfl

lemma mem_sortedSamples : s ∈ sortedSamples dateParse nowMs raws ↔ s ∈ byTime dateParse nowMs raws :=
  (List.mergeSort_perm _ _).mem_iff

lemma sortedSamples_pairwise (hd : ReadsIso dateParse) (raws : List Value) :
    (sortedSamples dateParse nowMs raws).Pairwise fun a b => timeOf dateParse a < timeOf dateParse b := by
  have hle : (sortedSamples dateParse nowMs raws).Pairwise fun a b => timeOf dateParse a ≤ timeOf dateParse b := by
    have hsort : (sortedSamples dateParse nowMs raws).Pairwise
        fun a b => decide (timeOf dateParse a ≤ timeOf dateParse b) = true :=
      List.pairwise_mergeSort
        (fun a b c hab hbc => decide_eq_true ((of_decide_eq_true hab).trans (of_decide_eq_true hbc)))
        (fun a b => by simpa using le_total (timeOf dateParse a) (timeOf dateParse b)) (byTime dateParse nowMs raws)
    exact hsort.imp of_decide_eq_true
  have hne : (sortedSamples dateParse nowMs raws).Pairwise fun a b => timeOf dateParse a ≠ timeOf dateParse b :=
    ((List.mergeSort_perm _ _).pairwise_iff fun h => h.symm).mpr (byTime_nodup hd raws)
  exact hle.imp₂ (fun _ _ h h' => lt_of_le_of_ne h h') hne

/-- What is scrubbed was read, is sorted strictly and is capped. -/
lemma scrubSamples_spec (hd : ReadsIso dateParse) (cap : ℕ) (raws : List Value) :
    (∀ s ∈ scrubSamples dateParse nowMs cap raws, ∃ raw ∈ raws, readSample dateParse nowMs raw = some s) ∧
    ((scrubSamples dateParse nowMs cap raws).Pairwise fun a b => timeOf dateParse a < timeOf dateParse b) ∧
    (scrubSamples dateParse nowMs cap raws).length ≤ max 1 cap := by
  rw [scrubSamples_eq]
  refine ⟨fun s hs => ?_, (sortedSamples_pairwise hd raws).sublist (List.drop_sublist _ _), ?_⟩
  · exact mem_byTime_read (mem_sortedSamples.mp (List.mem_of_mem_drop hs))
  · rw [List.length_drop]
    omega

/-- The newest sample comes last. -/
lemma scrubSamples_last (hd : ReadsIso dateParse) (cap : ℕ) {raws : List Value}
    (hread : readSample dateParse nowMs raw = some s)
    (hmax : ∀ raw ∈ raws, ∀ t, readSample dateParse nowMs raw = some t → timeOf dateParse t ≤ timeOf dateParse s) :
    (scrubSamples dateParse nowMs cap (raws ++ [raw])).getLast? = some s := by
  have hmem : s ∈ sortedSamples dateParse nowMs (raws ++ [raw]) := by
    rw [mem_sortedSamples, mem_byTime, List.filterMap_append, List.reverse_append]
    simp [hread]
  have hlast : (sortedSamples dateParse nowMs (raws ++ [raw])).getLast? = some s := by
    obtain ⟨l₁, l₂, hl⟩ := List.append_of_mem hmem
    rw [hl]
    cases hl₂ : l₂ with
    | nil => simp
    | cons t rest =>
      have hpair : (sortedSamples dateParse nowMs (raws ++ [raw])).Pairwise
          fun a b => timeOf dateParse a < timeOf dateParse b := sortedSamples_pairwise hd _
      rw [hl, hl₂] at hpair
      have hlt : timeOf dateParse s < timeOf dateParse t :=
        (List.pairwise_cons.mp (List.pairwise_append.mp hpair).2.1).1 t List.mem_cons_self
      have ht : t ∈ sortedSamples dateParse nowMs (raws ++ [raw]) := by rw [hl, hl₂]; simp
      obtain ⟨raw', hraw', ht'⟩ := mem_byTime_read (mem_sortedSamples.mp ht)
      rcases List.mem_append.mp hraw' with hold | hnew
      · exact absurd hlt (not_lt.mpr (hmax raw' hold t ht'))
      · obtain rfl := List.mem_singleton.mp hnew
        obtain rfl := Option.some.inj (hread.symm.trans ht')
        exact absurd hlt (lt_irrefl _)
  rw [scrubSamples_eq]
  have hne : (sortedSamples dateParse nowMs (raws ++ [raw])) ≠ [] := List.ne_nil_of_mem hmem
  have hpos := List.length_pos_iff.mpr hne
  rw [List.getLast?_drop, if_neg (by omega)]
  exact hlast

end Samples

/-! ### The node-hours -/

section NodeHours

variable {dateParse : DateParse} {s : Sample} {history : List Sample}

/-- No more counts than the largest number over the time that is left. -/
lemma nodeMs_le (start last : ℤ) {bound : ℤ}
    (hsorted : (s :: history).Pairwise fun a b => timeOf dateParse a < timeOf dateParse b)
    (hbound : ∀ t ∈ s :: history, (t.announced : ℤ) ≤ bound) :
    0 ≤ nodeMs dateParse start last (s :: history) ∧
      nodeMs dateParse start last (s :: history) ≤ bound * max 0 (last - max start (timeOf dateParse s)) := by
  have hs := hbound s List.mem_cons_self
  induction history generalizing s with
  | nil =>
    refine ⟨le_rfl, ?_⟩
    exact mul_nonneg (by omega) (le_max_left _ _)
  | cons t rest ih =>
    obtain ⟨hfirst, hrest⟩ := List.pairwise_cons.mp hsorted
    have hlt := hfirst t List.mem_cons_self
    have ht := hbound t (List.mem_cons_of_mem _ List.mem_cons_self)
    obtain ⟨hpos, hle⟩ := ih hrest (fun u hu => hbound u (List.mem_cons_of_mem _ hu)) ht
    unfold nodeMs
    dsimp only
    -- the time of this sample and the time that is left behind the next one do not overlap
    split
    · next hcounts =>
      refine ⟨add_nonneg (mul_nonneg (Int.natCast_nonneg _) (by omega)) hpos, ?_⟩
      calc _ ≤ bound * (min last (min (timeOf dateParse t) (timeOf dateParse s + 30 * MINUTE_MS)) -
              max start (timeOf dateParse s)) + bound * max 0 (last - max start (timeOf dateParse t)) :=
            add_le_add (mul_le_mul_of_nonneg_right hs (by omega)) hle
        _ = bound * (min last (min (timeOf dateParse t) (timeOf dateParse s + 30 * MINUTE_MS)) -
              max start (timeOf dateParse s) + max 0 (last - max start (timeOf dateParse t))) := by ring
        _ ≤ _ := mul_le_mul_of_nonneg_left (by omega) (by omega)
    · rw [zero_add]
      refine ⟨hpos, hle.trans (mul_le_mul_of_nonneg_left ?_ (by omega))⟩
      omega

/-- A day of the largest number bounds the node-hours. -/
lemma aggregateAnnouncedNodeHours_le (bound : ℤ) {nowMs hours : ℤ}
    (hsorted : history.Pairwise fun a b => timeOf dateParse a < timeOf dateParse b)
    (hbound : ∀ t ∈ history, (t.announced : ℤ) ≤ bound)
    (h : aggregateAnnouncedNodeHours dateParse history nowMs = some hours) : 0 ≤ hours ∧ hours ≤ bound * 24 := by
  unfold aggregateAnnouncedNodeHours at h
  split at h
  · cases h
  next hlen =>
  obtain rfl := Option.some.inj h
  cases history with
  | nil => simp at hlen
  | cons s rest =>
    obtain ⟨hpos, hle⟩ := nodeMs_le (nowMs - 24 * HOUR_MS) nowMs hsorted hbound
    have hb : 0 ≤ bound := le_trans (Int.natCast_nonneg _) (hbound s List.mem_cons_self)
    have hday : max 0 (nowMs - max (nowMs - 24 * HOUR_MS) (timeOf dateParse s)) ≤ 24 * HOUR_MS := by
      unfold HOUR_MS
      omega
    have htotal := hle.trans (mul_le_mul_of_nonneg_left hday hb)
    refine ⟨Int.ediv_nonneg hpos (by decide), ?_⟩
    rw [← mul_assoc] at htotal
    exact Int.ediv_le_of_le_mul (by decide) htotal

end NodeHours

/-! ### What is signed -/

section Signed

variable {X : Sections} {K : GroveKey} {v v' : Option Value} {payload payload' : Value} {key : String}

/-- What is picked is found under its key. -/
lemma get_pick {keys : List String} {fields : List (String × Value)} (h : pick keys v = some fields)
    (hkey : key ∈ keys) : (Json.obj fields).get key = optionalGet key v := by
  cases hv : v with
  | none =>
    rw [hv] at h
    cases h
  | some x =>
    obtain rfl : (keys.filterMap fun key => (x.get key).map fun y => (key, y)) = fields := by
      rw [hv] at h
      cases x with
      | null => cases h
      | _ => exact Option.some.inj h
    show _ = x.get key
    rw [Json.get]
    cases hx : x.get key with
    | none =>
      have hnone : ((keys.filterMap fun key => (x.get key).map fun y => (key, y)).reverse.find?
          fun field => field.1 = key) = none := by
        refine List.find?_eq_none.mpr fun field hf heq => ?_
        obtain ⟨k, -, hk⟩ := List.mem_filterMap.mp (List.mem_reverse.mp hf)
        obtain ⟨y, hy, rfl⟩ := Option.map_eq_some_iff.mp hk
        have hkk : k = key := by simpa using heq
        rw [hkk, hx] at hy
        cases hy
      rw [hnone]
      rfl
    | some y =>
      have hmem : (key, y) ∈ (keys.filterMap fun key => (x.get key).map fun y => (key, y)).reverse :=
        List.mem_reverse.mpr (List.mem_filterMap.mpr ⟨key, hkey, by rw [hx]; rfl⟩)
      obtain ⟨field, hfield⟩ := Option.isSome_iff_exists.mp
        (List.find?_isSome.mpr ⟨(key, y), hmem, by simp⟩ :
          ((keys.filterMap fun key => (x.get key).map fun y => (key, y)).reverse.find?
            fun field => field.1 = key).isSome)
      rw [hfield]
      obtain ⟨k, -, hk⟩ := List.mem_filterMap.mp (List.mem_reverse.mp (List.mem_of_find?_eq_some hfield))
      obtain ⟨z, hz, rfl⟩ := Option.map_eq_some_iff.mp hk
      have hkk : k = key := by simpa using List.find?_some hfield
      rw [hkk, hx] at hz
      exact hz.symm

/-- A sample that is signed is the one that is shown, as far as it is read. -/
def SameSample (raw item : Value) : Prop :=
  item.get "at" = raw.get "at" ∧ item.get "announced" = raw.get "announced"

lemma signedHistory_some {signed : List Value} (h : signedHistory v = some signed) :
    ∃ raws, v = some (.arr raws) ∧ List.Forall₂ SameSample raws signed := by
  unfold signedHistory at h
  split at h
  · next raws =>
    refine ⟨raws, rfl, ?_⟩
    rw [← List.mapM'_eq_mapM] at h
    induction raws generalizing signed with
    | nil =>
      obtain rfl := Option.some.inj h
      exact .nil
    | cons raw raws ih =>
      rw [List.mapM'_cons] at h
      obtain ⟨item, hitem, h⟩ := Option.bind_eq_some_iff.mp h
      obtain ⟨items, hitems, h⟩ := Option.bind_eq_some_iff.mp h
      obtain rfl := Option.some.inj h
      obtain ⟨fields, hpick, rfl⟩ := Option.map_eq_some_iff.mp hitem
      refine .cons ⟨?_, ?_⟩ (ih hitems)
      · exact get_pick hpick (by simp)
      · exact get_pick hpick (by simp)
  · cases h

lemma member_some {x : Option Value} (h : member key v = some x) : x = optionalGet key v := by
  unfold member at h
  split at h
  · cases h
  · cases h
  · exact (Option.some.inj h).symm

/-- What a payload shows of its snapshot. -/
structure Shows (payload : Value) (v : Option Value) : Prop where
  network : payload.get "network" = optionalGet "network" v
  source : ∃ source, payload.get "source" = some source ∧
    ∀ key ∈ sourceKeys, source.get key = optionalGet key (optionalGet "source" v)
  history : ∃ raws signed, optionalGet "history" v = some (.arr raws) ∧ payload.get "history" = some (.arr signed) ∧
    List.Forall₂ SameSample raws signed

lemma signingFields_shows {fields : List (String × Value)} (h : signingFields v = some fields) :
    Shows (.obj fields) v := by
  unfold signingFields at h
  obtain ⟨head, hhead, h⟩ := Option.bind_eq_some_iff.mp h
  obtain ⟨source', hsource', h⟩ := Option.bind_eq_some_iff.mp h
  obtain ⟨source, hsource, h⟩ := Option.bind_eq_some_iff.mp h
  obtain ⟨nodes', -, h⟩ := Option.bind_eq_some_iff.mp h
  obtain ⟨nodes, -, h⟩ := Option.bind_eq_some_iff.mp h
  obtain ⟨growth', -, h⟩ := Option.bind_eq_some_iff.mp h
  obtain ⟨growth, -, h⟩ := Option.bind_eq_some_iff.mp h
  obtain ⟨privacy', -, h⟩ := Option.bind_eq_some_iff.mp h
  obtain ⟨privacy, -, h⟩ := Option.bind_eq_some_iff.mp h
  obtain ⟨history', hhistory', h⟩ := Option.bind_eq_some_iff.mp h
  obtain ⟨history, hhistory, h⟩ := Option.bind_eq_some_iff.mp h
  obtain rfl := Option.some.inj h
  obtain rfl := member_some hsource'
  obtain rfl := member_some hhistory'
  obtain ⟨raws, hraws, hsame⟩ := signedHistory_some hhistory
  refine ⟨?_, ⟨.obj source, ?_, fun key hkey => get_pick hsource hkey⟩, raws, history, hraws, ?_, hsame⟩
  · rw [Json.get_append]
    exact get_pick hhead (by simp)
  · rw [Json.get_append]
    rfl
  · rw [Json.get_append]
    rfl

lemma groveSigningPayload_shows (h : groveSigningPayload X v = some payload) : Shows payload v := by
  unfold groveSigningPayload at h
  obtain ⟨fields, hfields, h⟩ := Option.bind_eq_some_iff.mp h
  have hshows := signingFields_shows hfields
  split at h
  · obtain ⟨sections, hsections, h⟩ := Option.bind_eq_some_iff.mp h
    obtain rfl := Option.some.inj h
    -- the sections have other keys
    have hother : ∀ key, key ≠ "relay" → key ≠ "onchain" → (Json.obj sections).get key = none := by
      intro key hrelay honchain
      unfold sectionFields at hsections
      obtain ⟨relay, -, hsections⟩ := Option.bind_eq_some_iff.mp hsections
      split at hsections
      · obtain rfl := Option.some.inj hsections
        simp [Json.get, Ne.symm hrelay]
      · obtain ⟨onchain, -, hsections⟩ := Option.bind_eq_some_iff.mp hsections
        obtain rfl := Option.some.inj hsections
        simp [Json.get, Ne.symm hrelay, Ne.symm honchain]
    have hget : ∀ key, key ≠ "relay" → key ≠ "onchain" →
        (Json.obj (fields ++ sections)).get key = (Json.obj fields).get key := by
      intro key hrelay honchain
      rw [Json.get_append, hother key hrelay honchain, Option.none_or]
    refine ⟨?_, ?_, ?_⟩
    · rw [hget _ (by decide) (by decide)]
      exact hshows.network
    · rw [hget _ (by decide) (by decide)]
      exact hshows.source
    · rw [hget _ (by decide) (by decide)]
      exact hshows.history
  · obtain rfl := Option.some.inj h
    exact hshows

/-- A value that is written as a text is one. -/
lemma wire_eq_str {x : Value} {text : String} (h : x.wire = .str text) : x = .str text := by
  cases x with
  | str s => exact h
  | num n => cases n <;> cases h
  | arr items => cases h
  | obj fields => cases h
  | null => cases h
  | bool b => cases h

lemma wire_eq_num {x : Value} {n : ℤ} (h : x.wire = (number n).wire) : x.asInteger = some n := by
  rw [← Value.asInteger_wire, h, Value.asInteger_wire, asInteger_number]

/-- Two snapshots with one text have one network, one source and one history. -/
lemma same_text (h : groveSigningPayload X v = some payload) (h' : groveSigningPayload X v' = some payload')
    (htext : payload.stringify = payload'.stringify) :
    (optionalGet "network" v).map Value.wire = (optionalGet "network" v').map Value.wire ∧
    (∀ key ∈ sourceKeys, (optionalGet key (optionalGet "source" v)).map Value.wire =
      (optionalGet key (optionalGet "source" v')).map Value.wire) ∧
    ∃ raws raws', optionalGet "history" v = some (.arr raws) ∧ optionalGet "history" v' = some (.arr raws') ∧
      List.Forall₂ (fun raw raw' : Value => (raw.get "at").map Value.wire = (raw'.get "at").map Value.wire ∧
        (raw.get "announced").map Value.wire = (raw'.get "announced").map Value.wire) raws raws' := by
  have hs := groveSigningPayload_shows h
  have hs' := groveSigningPayload_shows h'
  have hwire := Value.wire_eq_of_stringify htext
  have hget : ∀ key, (payload.get key).map Value.wire = (payload'.get key).map Value.wire := by
    intro key
    rw [← Value.get_wire, ← Value.get_wire, hwire]
  refine ⟨?_, fun key hkey => ?_, ?_⟩
  · rw [← hs.network, ← hs'.network]
    exact hget _
  · obtain ⟨source, hsource, hall⟩ := hs.source
    obtain ⟨source', hsource', hall'⟩ := hs'.source
    have heq := hget "source"
    rw [hsource, hsource', Option.map_some, Option.map_some] at heq
    rw [← hall key hkey, ← hall' key hkey, ← Value.get_wire, ← Value.get_wire, Option.some.inj heq]
  · obtain ⟨raws, signed, hraws, hsigned, hsame⟩ := hs.history
    obtain ⟨raws', signed', hraws', hsigned', hsame'⟩ := hs'.history
    refine ⟨raws, raws', hraws, hraws', ?_⟩
    have heq := hget "history"
    rw [hsigned, hsigned', Option.map_some, Option.map_some, Value.wire_arr, Value.wire_arr] at heq
    have hmap : signed.map Value.wire = signed'.map Value.wire := Json.arr.inj (Option.some.inj heq)
    clear heq hsigned hsigned' hraws hraws' hs hs'
    induction hsame generalizing raws' signed' with
    | nil =>
      cases hsame' with
      | nil => exact .nil
      | cons _ _ => cases hmap
    | @cons raw item raws signed hfirst _ ih =>
      cases hsame' with
      | nil => cases hmap
      | @cons raw' item' raws' signed' hfirst' hrest' =>
        obtain ⟨hitem, hrest⟩ := List.cons.inj hmap
        refine .cons ⟨?_, ?_⟩ (ih _ _ hrest' hrest)
        · rw [← hfirst.1, ← hfirst'.1, ← Value.get_wire, ← Value.get_wire, hitem]
        · rw [← hfirst.2, ← hfirst'.2, ← Value.get_wire, ← Value.get_wire, hitem]

end Signed

/-! ### One collection -/

section Collections

variable {X : Sections} {K : GroveKey} {dateParse : DateParse} {toLowerCase : String → String}
  {directory : Option Value} {o : Options} {p q : PublicSnapshot} {s : List PublicSnapshot} {t : Sample}

variable (X K) in
/-- A snapshot that is shown with a good signature has the text of one that was published. -/
def Unforged (s : List PublicSnapshot) (previous : Option Value) : Prop :=
  verifyPublicGroveAttestation X K previous = true → ∀ payload, groveSigningPayload X previous = some payload →
    ∃ q ∈ s, ∃ payload', groveSigningPayload X (some (.obj q.fields)) = some payload' ∧
      payload.stringify = payload'.stringify

/-- The sections stand behind the fields that every snapshot has. -/
lemma fields_get (p : PublicSnapshot) {key : String} (hrelay : key ≠ "relay") (honchain : key ≠ "onchain") :
    (Json.obj p.fields).get key = (Json.obj { p with relay := none, onchain := none }.fields).get key := by
  have hnone : (Json.obj ((p.relay.map fun relay => ("relay", relay)).toList ++
      (p.onchain.map fun onchain => ("onchain", onchain)).toList)).get key = none := by
    cases p.relay <;> cases p.onchain <;> simp [Json.get, Ne.symm hrelay, Ne.symm honchain]
  unfold PublicSnapshot.fields
  rw [Json.get_append, hnone, Option.none_or, Json.get_append]
  rfl

lemma isText_iff {text : String} {v : Option Value} : isText text v = true ↔ v = some (.str text) := by
  unfold isText
  rw [beq_iff_eq]
  cases v with
  | none => simp
  | some v => cases v <;> simp [Value.asString]

/-- A sample that is carried on stands in the history of a snapshot of the same network and cadence. -/
lemma carried_from (hd : ReadsIso dateParse) {network : String} {cadenceMinutes nowMs : ℤ} {previous : Option Value}
    {cap : ℕ} (hgood : ∀ q ∈ s, ∀ t ∈ q.history, t.Good dateParse) (hunforged : Unforged X K s previous)
    (hcompat : compatible X K network cadenceMinutes previous = true)
    (ht : t ∈ scrubGroveHistory dateParse previous nowMs cap) :
    ∃ q ∈ s, q.network = network ∧ q.cadenceMinutes = cadenceMinutes ∧ t ∈ q.history := by
  unfold compatible at hcompat
  simp only [Bool.and_eq_true] at hcompat
  obtain ⟨⟨⟨⟨⟨⟨-, hnetwork⟩, hcadence⟩, -⟩, -⟩, -⟩, hverify⟩ := hcompat
  have hsigned := hverify
  unfold verifyPublicGroveAttestation at hsigned
  obtain ⟨signature, -, hsigned⟩ := (Option.any_eq_true _ _).mp hsigned
  obtain ⟨payload, hpayload, -⟩ := (Option.any_eq_true _ _).mp hsigned
  obtain ⟨q, hq, payload', hpayload', htext⟩ := hunforged hverify payload hpayload
  obtain ⟨hnet, hsource, raws, raws', hraws, hraws', hsame⟩ := same_text hpayload hpayload' htext
  refine ⟨q, hq, ?_, ?_, ?_⟩
  · rw [isText_iff.mp hnetwork, show optionalGet "network" (some (.obj q.fields)) = some (.str q.network) from
      fields_get q (by decide) (by decide)] at hnet
    exact (Json.str.inj (Option.some.inj hnet)).symm
  · have hcad := hsource "cadenceMinutes" (by decide)
    rw [show optionalGet "cadenceMinutes" (optionalGet "source" (some (.obj q.fields))) =
      some (number q.cadenceMinutes) by
        rw [show optionalGet "source" (some (.obj q.fields)) = _ from fields_get q (by decide) (by decide)]
        rfl] at hcad
    obtain ⟨x, hx, hxc⟩ := Option.bind_eq_some_iff.mp (beq_iff_eq.mp hcadence)
    rw [hx, Option.map_some, Option.map_some] at hcad
    rw [wire_eq_num (Option.some.inj hcad)] at hxc
    exact Option.some.inj hxc
  · have hhistory : some (Json.arr raws') = some (.arr (q.history.map Sample.value)) := by
      rw [← hraws']
      exact fields_get q (by decide) (by decide)
    obtain rfl := Json.arr.inj (Option.some.inj hhistory)
    unfold scrubGroveHistory at ht
    rw [hraws] at ht
    obtain ⟨raw, hraw, hread⟩ := (scrubSamples_spec hd cap raws).1 t ht
    obtain ⟨raw', hraw', hat, hannounced⟩ : ∃ raw' ∈ q.history.map Sample.value,
        (raw.get "at").map Value.wire = (raw'.get "at").map Value.wire ∧
          (raw.get "announced").map Value.wire = (raw'.get "announced").map Value.wire := by
      obtain ⟨i, hi, rfl⟩ := List.mem_iff_getElem.mp hraw
      have hi' : i < (q.history.map Sample.value).length := hsame.length_eq ▸ hi
      exact ⟨_, List.getElem_mem hi', hsame.get hi hi'⟩
    obtain ⟨u, hu, rfl⟩ := List.mem_map.mp hraw'
    obtain ⟨hgoodt, htime, hcount, -⟩ := readSample_some hd hread
    have hgoodu := hgood q hq u hu
    obtain ⟨x, hx, hxat⟩ := Option.map_eq_some_iff.mp (hat.trans (show _ = some (Json.str u.at_) from rfl))
    rw [hx, wire_eq_str hxat, hd _ _ hgoodu.1] at htime
    obtain ⟨y, hy, hyan⟩ := Option.map_eq_some_iff.mp
      (hannounced.trans (show _ = some (number u.announced).wire from rfl))
    rw [hy, Option.bind_some, wire_eq_num hyan] at hcount
    have hsame_at : t.at_ = u.at_ := hgoodt.eq_of_time hgoodu (Option.some.inj htime).symm
    have hsame_count : t.announced = u.announced := Int.ofNat.inj (Option.some.inj hcount).symm
    obtain rfl : t = u := by
      cases t
      cases u
      cases hsame_at
      cases hsame_count
      rfl
    exact hu

/-- The samples that a collection has: those it carries on and its own. -/
def samplesOf (X : Sections) (K : GroveKey) (dateParse : DateParse) (network : String) (o : Options) (ms : ℤ)
    (own : Sample) : List Sample :=
  scrubGroveHistory dateParse (if compatible X K network o.cadenceMinutes o.previous then o.previous else none) ms
    GROVE_HISTORY_CAP ++ [own]

/-- What is built. -/
lemma build_ok (h : buildPublicGroveSnapshot X K dateParse toLowerCase directory o = .ok p) :
    ∃ (gateways : List Value) (ms : ℤ), optionalGet "gateways" directory = some (.arr gateways) ∧
      (5 ≤ o.cadenceMinutes ∧ o.cadenceMinutes ≤ 60) ∧ o.cadenceMinutes * MINUTE_MS ∣ ms ∧
      iso ms = some p.observedAt ∧ p.schema = (if o.relay.isNone then GROVE_SCHEMA else GROVE_SCHEMA_V2) ∧
      p.network = publicNetwork toLowerCase o.network ∧
      p.cadenceMinutes = o.cadenceMinutes ∧ p.announced = gateways.length ∧ p.announced ≤ 100000 ∧
      p.history = scrubSamples dateParse ms GROVE_HISTORY_CAP
        ((samplesOf X K dateParse p.network o ms ⟨p.observedAt, p.announced⟩).map Sample.value) ∧
      p.announcedNodeHours = aggregateAnnouncedNodeHours dateParse p.history ms ∧
      p.relay = o.relay ∧ p.onchain = o.onchain ∧ (p.relay = none → p.onchain = none) := by
  unfold buildPublicGroveSnapshot at h
  split at h
  swap
  · cases h
  next gateways hgateways =>
  split at h
  · cases h
  next hcadence =>
  dsimp only at h
  split at h
  · cases h
  next observed hobserved =>
  split at h
  · cases h
  next hcount =>
  split at h
  · cases h
  split at h
  · cases h
  next hsections =>
  split at h
  · cases h
  obtain rfl := Except.ok.inj h
  refine ⟨gateways, _, hgateways, ⟨by omega, by omega⟩, Dvd.intro_left _ rfl, hobserved, rfl, rfl, rfl, rfl,
    not_lt.mp hcount, rfl, rfl, rfl, rfl, fun hrelay => ?_⟩
  by_contra honchain
  exact hsections ⟨Option.isSome_iff_ne_none.mpr honchain, by rw [show o.relay = none from hrelay]; rfl⟩

variable (dateParse) in
/-- What a reader may rely on in a snapshot, where `s` are the snapshots that were published. -/
structure SnapshotSound (s : List PublicSnapshot) (p : PublicSnapshot) (ms : ℤ) : Prop where
  cadence : 5 ≤ p.cadenceMinutes ∧ p.cadenceMinutes ≤ 60
  observed : iso ms = some p.observedAt
  bucket : p.cadenceMinutes * MINUTE_MS ∣ ms
  announced : p.announced ≤ 100000
  good : ∀ t ∈ p.history, t.Good dateParse
  aligned : ∀ t ∈ p.history, p.cadenceMinutes * MINUTE_MS ∣ timeOf dateParse t
  window : ∀ t ∈ p.history, ms - 48 * HOUR_MS ≤ timeOf dateParse t ∧ timeOf dateParse t ≤ ms + 5 * MINUTE_MS
  sorted : p.history.Pairwise fun a b => timeOf dateParse a < timeOf dateParse b
  length_le : p.history.length ≤ GROVE_HISTORY_CAP
  last : 5 < p.cadenceMinutes → p.history.getLast? = some ⟨p.observedAt, p.announced⟩
  hours : p.announcedNodeHours = aggregateAnnouncedNodeHours dateParse p.history ms
  observedBy : ∀ t ∈ p.history, ∃ q ∈ s, q.observedAt = t.at_ ∧ q.announced = t.announced ∧ q.network = p.network ∧
    q.cadenceMinutes = p.cadenceMinutes

/-- Buckets of more than five minutes do not reach into the five minutes that a reader tolerates. -/
lemma aligned_le {a b bucket : ℤ} (ha : bucket ∣ a) (hb : bucket ∣ b) (hbucket : 5 * MINUTE_MS < bucket)
    (h : a ≤ b + 5 * MINUTE_MS) : a ≤ b := by
  obtain ⟨x, rfl⟩ := ha
  obtain ⟨y, rfl⟩ := hb
  have hpos : 0 < bucket := lt_trans (by decide) hbucket
  have hlt : bucket * x < bucket * (y + 1) := by
    rw [mul_add, mul_one]
    omega
  have hxy : x < y + 1 := lt_of_mul_lt_mul_left hlt hpos.le
  exact mul_le_mul_of_nonneg_left (by omega) hpos.le

/-- One more snapshot. -/
lemma build_sound (hd : ReadsIso dateParse) (hs : ∀ q ∈ s, ∃ ms, SnapshotSound dateParse s q ms)
    (hunforged : Unforged X K s o.previous)
    (h : buildPublicGroveSnapshot X K dateParse toLowerCase directory o = .ok p) :
    ∃ ms, SnapshotSound dateParse (s ++ [p]) p ms := by
  obtain ⟨gateways, ms, -, hcadence, hbucket, hobserved, -, -, hpc, -, hannounced, hhistory, hhours, -⟩ := build_ok h
  rw [← hpc] at hcadence hbucket
  have hown : timeOf dateParse ⟨p.observedAt, p.announced⟩ = ms := timeOf_iso hd hobserved
  have hcarried : ∀ t ∈ samplesOf X K dateParse p.network o ms ⟨p.observedAt, p.announced⟩,
      t = ⟨p.observedAt, p.announced⟩ ∨
        ∃ q ∈ s, q.network = p.network ∧ q.cadenceMinutes = p.cadenceMinutes ∧ t ∈ q.history := by
    intro t ht
    rcases List.mem_append.mp ht with hold | hnew
    · right
      split at hold
      · next hcompat =>
        rw [hpc]
        refine carried_from hd (fun q hq t ht => ?_) hunforged hcompat hold
        obtain ⟨ms', hsound⟩ := hs q hq
        exact hsound.good t ht
      · cases hold
    · exact .inl (List.mem_singleton.mp hnew)
  -- each sample that may enter is good, aligned, and was observed
  have hentry : ∀ t ∈ samplesOf X K dateParse p.network o ms ⟨p.observedAt, p.announced⟩, t.Good dateParse ∧
      p.cadenceMinutes * MINUTE_MS ∣ timeOf dateParse t ∧ ∃ q ∈ s ++ [p], q.observedAt = t.at_ ∧
        q.announced = t.announced ∧ q.network = p.network ∧ q.cadenceMinutes = p.cadenceMinutes := by
    intro t ht
    rcases hcarried t ht with rfl | ⟨q, hq, hnetwork, hqc, htq⟩
    · refine ⟨⟨?_, hannounced⟩, ?_, p, List.mem_append_right _ (List.mem_singleton_self _), rfl, rfl, rfl, rfl⟩
      · rw [hown]
        exact hobserved
      · rw [hown]
        exact hbucket
    · obtain ⟨ms', hsound⟩ := hs q hq
      obtain ⟨q', hq', hat, hcount, hnetwork', hcadence'⟩ := hsound.observedBy t htq
      refine ⟨hsound.good t htq, hqc ▸ hsound.aligned t htq, q', List.mem_append_left _ hq', hat, hcount,
        hnetwork'.trans hnetwork, hcadence'.trans hqc⟩
  obtain ⟨hmem, hsorted, hlength⟩ := @scrubSamples_spec dateParse ms hd GROVE_HISTORY_CAP
    ((samplesOf X K dateParse p.network o ms ⟨p.observedAt, p.announced⟩).map Sample.value)
  rw [← hhistory] at hmem hsorted hlength
  have hread : ∀ t ∈ samplesOf X K dateParse p.network o ms ⟨p.observedAt, p.announced⟩,
      ∀ u, readSample dateParse ms t.value = some u → u = t := by
    intro t ht u hu
    rw [readSample_value hd (hentry t ht).1] at hu
    exact ((Option.ite_none_right_eq_some.mp hu).2 |> Option.some.inj).symm
  have hkept : ∀ t ∈ p.history, t ∈ samplesOf X K dateParse p.network o ms ⟨p.observedAt, p.announced⟩ ∧
      ms - 48 * HOUR_MS ≤ timeOf dateParse t ∧ timeOf dateParse t ≤ ms + 5 * MINUTE_MS := by
    intro t ht
    obtain ⟨raw, hraw, hrt⟩ := hmem t ht
    obtain ⟨u, hu, rfl⟩ := List.mem_map.mp hraw
    obtain ⟨-, -, -, hwindow⟩ := readSample_some hd hrt
    obtain rfl := hread u hu t hrt
    exact ⟨hu, hwindow⟩
  refine ⟨ms, hcadence, hobserved, hbucket, hannounced, fun t ht => (hentry t (hkept t ht).1).1,
    fun t ht => (hentry t (hkept t ht).1).2.1, fun t ht => (hkept t ht).2, hsorted, hlength.trans (by decide),
    fun hfive => ?_, hhours, fun t ht => (hentry t (hkept t ht).1).2.2⟩
  have hbig : 5 * MINUTE_MS < p.cadenceMinutes * MINUTE_MS := mul_lt_mul_of_pos_right hfive (by decide)
  rw [hhistory, samplesOf, List.map_append, List.map_singleton]
  refine scrubSamples_last hd GROVE_HISTORY_CAP ?_ fun raw hraw u hu => ?_
  · rw [readSample_value hd (hentry _ (List.mem_append_right _ (List.mem_singleton_self _))).1, hown, if_pos]
    unfold HOUR_MS MINUTE_MS
    omega
  · obtain ⟨t, ht, rfl⟩ := List.mem_map.mp hraw
    have htmem : t ∈ samplesOf X K dateParse p.network o ms ⟨p.observedAt, p.announced⟩ := List.mem_append_left _ ht
    obtain ⟨-, -, -, -, hle⟩ := readSample_some hd hu
    obtain rfl := hread t htmem u hu
    rw [hown]
    exact aligned_le (hentry _ htmem).2.1 hbucket hbig hle

end Collections

/-! ### What the site accepts -/

section Site

variable {X : Sections} {K : GroveKey} {dateParse : DateParse} {p : PublicSnapshot} {ms : ℤ} {v : Value}

lemma isoMillis_iso (hd : ReadsIso dateParse) {text : String} (h : iso ms = some text) :
    isoMillis dateParse (some (.str text)) = some ms := by
  show (dateParse (some (.str text))).filter _ = _
  rw [hd ms text h, Option.filter_some, h, beq_self_eq_true, if_pos rfl]

lemma isNumber_number (n : ℤ) : isNumber n (some (number n)) = true :=
  beq_iff_eq.mpr (asInteger_number n)

lemma exactKeys_of_keys {fields : List (String × Value)} {keys : List String} (hkeys : fields.map Prod.fst = keys)
    (hnodup : keys.Nodup) : exactKeys (some (.obj fields)) keys = true := by
  show (joinedKeys (fields.map Prod.fst).dedup == joinedKeys keys) = true
  rw [hkeys, hnodup.dedup]
  exact beq_self_eq_true _

/-- A history of good samples in the order of their times, none behind the snapshot. -/
lemma validHistory_of_sorted (hd : ReadsIso dateParse) {history : List Sample} {prior : Option ℤ}
    (hgood : ∀ t ∈ history, t.Good dateParse)
    (hsorted : history.Pairwise fun a b => timeOf dateParse a < timeOf dateParse b)
    (hprior : ∀ q ∈ prior, ∀ t ∈ history, q < timeOf dateParse t) (hle : ∀ t ∈ history, timeOf dateParse t ≤ ms) :
    validHistory dateParse ms prior (history.map Sample.value) = true := by
  induction history generalizing prior with
  | nil => rfl
  | cons t rest ih =>
    obtain ⟨hfirst, hrest⟩ := List.pairwise_cons.mp hsorted
    have hat : isoMillis dateParse (t.value.get "at") = some (timeOf dateParse t) :=
      isoMillis_iso hd (hgood t List.mem_cons_self).1
    have hcount : (safeCount (t.value.get "announced")).isSome = true := by
      rw [show t.value.get "announced" = some (number t.announced) from rfl,
        safeCount_number _ (hgood t List.mem_cons_self).2]
      rfl
    have hkeys : exactKeys (some t.value) ["at", "announced"] = true := exactKeys_of_keys rfl (by decide)
    have hnext := @ih (some (timeOf dateParse t)) (fun u hu => hgood u (List.mem_cons_of_mem _ hu)) hrest
      (fun q hq u hu => by
        obtain rfl := Option.mem_some_iff.mp hq
        exact hfirst u hu) (fun u hu => hle u (List.mem_cons_of_mem _ hu))
    have hbefore : (prior.all fun prior => decide (prior < timeOf dateParse t)) = true := by
      cases prior with
      | none => rfl
      | some q => exact decide_eq_true (hprior q rfl t List.mem_cons_self)
    rw [List.map_cons, validHistory]
    simp only [hat, hkeys, hcount, hnext, hbefore, hle t List.mem_cons_self, decide_true, Bool.and_self]

/-- The signature is made of nothing that is appended. -/
lemma groveSigningPayload_append (X : Sections) (fields : List (String × Value)) {extra : List (String × Value)}
    (hextra : ∀ key ∈ ["schema", "network", "observedAt", "source", "nodes", "growth", "privacy", "history", "relay",
      "onchain"], (Json.obj extra).get key = none) :
    signingFields (some (.obj (fields ++ extra))) = signingFields (some (.obj fields)) ∧
      groveSigningPayload X (some (.obj (fields ++ extra))) = groveSigningPayload X (some (.obj fields)) := by
  have hget : ∀ key ∈ ["schema", "network", "observedAt", "source", "nodes", "growth", "privacy", "history", "relay",
      "onchain"], (Json.obj (fields ++ extra)).get key = (Json.obj fields).get key := by
    intro key hkey
    rw [Json.get_append, hextra key hkey, Option.none_or]
  simp only [List.forall_mem_cons] at hget
  obtain ⟨h₁, h₂, h₃, h₄, h₅, h₆, h₇, h₈, h₉, h₁₀, -⟩ := hget
  have hfirst : signingFields (some (.obj (fields ++ extra))) = signingFields (some (.obj fields)) := by
    unfold signingFields
    simp only [pick, member, List.filterMap_cons, List.filterMap_nil, h₁, h₂, h₃, h₄, h₅, h₆, h₇, h₈]
  refine ⟨hfirst, ?_⟩
  have hsections : sectionFields X (some (.obj (fields ++ extra))) = sectionFields X (some (.obj fields)) := by
    unfold sectionFields optionalGet
    rw [Option.bind_some, Option.bind_some, Option.bind_some, Option.bind_some, h₉, h₁₀]
  unfold groveSigningPayload optionalGet
  rw [hfirst, hsections, Option.bind_some, Option.bind_some, h₁]

/-- What is attested is verified. -/
lemma attest_verified (h : attest X K p.fields = some v) : ∃ payload,
    groveSigningPayload X (some (.obj p.fields)) = some payload ∧
    v = .obj (p.fields ++ [("attestation", .obj [("algorithm", .str "Ed25519"),
      ("keyId", .str GROVE_ATTESTATION_KEY_ID), ("signature", .str (K.sign payload.stringify))])]) ∧
    signingFields (some v) = signingFields (some (.obj p.fields)) ∧
    groveSigningPayload X (some v) = some payload ∧
    verifyPublicGroveAttestation X K (some v) = true := by
  unfold attest at h
  obtain ⟨payload, hpayload, h⟩ := Option.bind_eq_some_iff.mp h
  obtain rfl := Option.some.inj h
  have hshown : shownSignature (some (.obj (p.fields ++ [("attestation", .obj [("algorithm", .str "Ed25519"),
      ("keyId", .str GROVE_ATTESTATION_KEY_ID), ("signature", .str (K.sign payload.stringify))])]))) =
        some (K.sign payload.stringify) := by
    have hatt : optionalGet "attestation" (some (.obj (p.fields ++ [("attestation", .obj [("algorithm", .str "Ed25519"),
        ("keyId", .str GROVE_ATTESTATION_KEY_ID), ("signature", .str (K.sign payload.stringify))])]))) =
          some (.obj [("algorithm", .str "Ed25519"), ("keyId", .str GROVE_ATTESTATION_KEY_ID),
            ("signature", .str (K.sign payload.stringify))]) := by
      show (Json.obj _).get "attestation" = _
      rw [Json.get_append]
      rfl
    unfold shownSignature
    simp only [hatt]
    exact if_pos (K.sign_shape _)
  obtain ⟨hfields, hsame⟩ := @groveSigningPayload_append X p.fields
    [("attestation", .obj [("algorithm", .str "Ed25519"), ("keyId", .str GROVE_ATTESTATION_KEY_ID),
      ("signature", .str (K.sign payload.stringify))])] (fun key hkey => by
        simp only [List.mem_cons, List.not_mem_nil, or_false] at hkey
        rcases hkey with rfl | rfl | rfl | rfl | rfl | rfl | rfl | rfl | rfl | rfl <;> rfl)
  refine ⟨payload, hpayload, rfl, hfields, hsame.trans hpayload, ?_⟩
  unfold verifyPublicGroveAttestation
  rw [hshown, Option.any_some, hsame, hpayload, Option.any_some]
  exact K.verify_sign _

/-- What is attested is found as it was. -/
lemma attested_get (h : attest X K p.fields = some v) {key : String} (hkey : key ≠ "attestation") :
    optionalGet key (some v) = (Json.obj p.fields).get key := by
  obtain ⟨payload, -, rfl, -⟩ := attest_verified h
  show (Json.obj _).get key = _
  rw [Json.get_append, show (Json.obj [("attestation", _)]).get key = none by simp [Json.get, Ne.symm hkey],
    Option.none_or]

end Site

section Accepted

variable {X : Sections} {K : GroveKey} {dateParse : DateParse} {p : PublicSnapshot} {s : List PublicSnapshot}
  {ms : ℤ} {v : Value}

lemma validSource_source (hcadence : p.cadenceMinutes = 15) : validSource (some p.source) = true := by
  have hfifteen : isNumber 15 (optionalGet "cadenceMinutes" (some p.source)) = true := by
    rw [show optionalGet "cadenceMinutes" (some p.source) = some (number p.cadenceMinutes) from rfl, hcadence]
    exact isNumber_number 15
  have hkeys : exactKeys (some p.source) sourceKeys = true := exactKeys_of_keys rfl (by decide)
  unfold validSource
  rw [hkeys, hfifteen]
  rfl

lemma validNodes_announced (h : p.announced ≤ 100000) :
    validNodes (some (.obj [("announced", number p.announced)])) = true := by
  have hcount : safeCount (optionalGet "announced" (some (.obj [("announced", number p.announced)]))) =
      some p.announced := safeCount_number _ h
  have hkeys : exactKeys (some (.obj [("announced", number p.announced)])) ["announced"] = true :=
    exactKeys_of_keys rfl (by decide)
  unfold validNodes
  rw [hkeys, hcount]
  rfl

lemma validGrowth_growth (hsound : SnapshotSound dateParse s p ms) :
    validGrowth p.history.length (some p.growth) = true := by
  have hwindow : isNumber 24 (optionalGet "windowHours" (some p.growth)) = true := isNumber_number 24
  have hsamples : isNumber p.history.length (optionalGet "samples" (some p.growth)) = true := isNumber_number _
  have hhours : validHours (optionalGet "announcedNodeHours" (some p.growth)) = true := by
    show validHours (some (p.announcedNodeHours.elim .null number)) = true
    cases hh : p.announcedNodeHours with
    | none => rfl
    | some hours =>
      obtain ⟨hpos, hbound⟩ := aggregateAnnouncedNodeHours_le 100000 hsound.sorted
        (fun t ht => by exact_mod_cast (hsound.good t ht).2) (hsound.hours.symm.trans hh)
      show ((number hours).asInteger.any fun n => decide (0 ≤ n ∧ n ≤ 2400000)) = true
      rw [asInteger_number]
      exact decide_eq_true ⟨hpos, hbound⟩
  have hkeys : exactKeys (some p.growth) growthKeys = true := exactKeys_of_keys rfl (by decide)
  unfold validGrowth
  rw [hkeys, hwindow, hhours, hsamples]
  rfl

lemma validPrivacy_privacyValue : validPrivacy (some privacyValue) = true := by
  have hfive : isNumber 5 (optionalGet "futureSharedStatsMinReportingNodes" (some privacyValue)) = true :=
    isNumber_number 5
  have hkeys : exactKeys (some privacyValue) privacyKeys = true := exactKeys_of_keys rfl (by decide)
  unfold validPrivacy
  rw [hkeys, hfive]
  rfl

lemma validAttestation_signature {signature : String} (h : signatureShape signature = true) :
    validAttestation (some (.obj [("algorithm", .str "Ed25519"), ("keyId", .str GROVE_ATTESTATION_KEY_ID),
      ("signature", .str signature)])) = true := by
  have hkeys : exactKeys (some (.obj [("algorithm", .str "Ed25519"), ("keyId", .str GROVE_ATTESTATION_KEY_ID),
      ("signature", .str signature)])) ["algorithm", "keyId", "signature"] = true := exactKeys_of_keys rfl (by decide)
  have htext : testedText (.str signature) = some signature := by rw [testedText]
  have hsignature : optionalGet "signature" (some (.obj [("algorithm", .str "Ed25519"),
      ("keyId", .str GROVE_ATTESTATION_KEY_ID), ("signature", .str signature)])) = some (.str signature) := rfl
  unfold validAttestation
  rw [hkeys, hsignature, Option.bind_some, htext, Option.any_some, h]
  rfl

/-- The fields of the first schema. -/
def firstFields (p : PublicSnapshot) : List (String × Value) := { p with relay := none, onchain := none }.fields

/-- The site accepts a snapshot of the first schema that is attested. -/
lemma site_accepts (hd : ReadsIso dateParse) (hsound : SnapshotSound dateParse s p ms)
    (hattest : attest X K p.fields = some v) (hschema : p.schema = GROVE_SCHEMA)
    (hnetwork : p.network = GROVE_NETWORK) (hcadence : p.cadenceMinutes = 15)
    (hrelay : p.relay = none) (honchain : p.onchain = none) {now : ℤ} (hnow : ms ≤ now + 5 * MINUTE_MS) :
    validGroveSnapshot dateParse (some v) now = true ∧ verifyGroveSnapshot K (some v) = true := by
  obtain ⟨payload, hpayload, hv, hsigning, -⟩ := attest_verified hattest
  have hfirst : p.fields = firstFields p := by
    cases p
    cases hrelay
    cases honchain
    rfl
  have hlast := hsound.last (by omega)
  have hne : p.history ≠ [] := by
    rintro hnil
    rw [hnil] at hlast
    cases hlast
  have hle : ∀ t ∈ p.history, timeOf dateParse t ≤ ms := fun t ht =>
    aligned_le (hsound.aligned t ht) hsound.bucket (by rw [hcadence]; decide) (hsound.window t ht).2
  have hshow : ∀ key, key ≠ "attestation" → optionalGet key (some v) = (Json.obj (firstFields p)).get key :=
    fun key hkey => hfirst ▸ attested_get hattest hkey
  have hattestation : optionalGet "attestation" (some v) = some (.obj [("algorithm", .str "Ed25519"),
      ("keyId", .str GROVE_ATTESTATION_KEY_ID), ("signature", .str (K.sign payload.stringify))]) := by
    rw [hv]
    show (Json.obj _).get "attestation" = _
    rw [Json.get_append]
    rfl
  refine ⟨?_, ?_⟩
  · have hobserved : isoMillis dateParse (optionalGet "observedAt" (some v)) = some ms := by
      rw [hshow _ (by decide)]
      exact isoMillis_iso hd hsound.observed
    have hhistory : optionalGet "history" (some v) = some (.arr (p.history.map Sample.value)) := hshow _ (by decide)
    have hkeys : exactKeys (some v) ["schema", "network", "observedAt", "source", "nodes", "growth", "privacy",
        "history", "attestation"] = true := by
      rw [hv, hfirst]
      exact exactKeys_of_keys rfl (by decide)
    have hvalid : validHistory dateParse ms none (p.history.map Sample.value) = true :=
      validHistory_of_sorted hd hsound.good hsound.sorted (fun q hq => by cases hq) hle
    have hend : ((p.history.map Sample.value).getLast?.any fun sample =>
        isoMillis dateParse (sample.get "at") == some ms) = true := by
      rw [List.getLast?_map, hlast]
      show (isoMillis dateParse (some (.str p.observedAt)) == some ms) = true
      rw [isoMillis_iso hd hsound.observed]
      exact beq_self_eq_true _
    have hlength : 1 ≤ p.history.length := List.length_pos_iff.mpr hne
    have hcap : p.history.length ≤ 97 := hsound.length_le
    have hvschema : isText GROVE_SCHEMA (optionalGet "schema" (some v)) = true := by
      rw [hshow _ (by decide), ← hschema]
      exact isText_iff.mpr rfl
    have hvnetwork : isText GROVE_NETWORK (optionalGet "network" (some v)) = true := by
      rw [hshow _ (by decide), ← hnetwork]
      exact isText_iff.mpr rfl
    have hsource : validSource (optionalGet "source" (some v)) = true := by
      rw [hshow _ (by decide)]
      exact validSource_source hcadence
    have hnodes : validNodes (optionalGet "nodes" (some v)) = true := by
      rw [hshow _ (by decide)]
      exact validNodes_announced hsound.announced
    have hgrowth : validGrowth p.history.length (optionalGet "growth" (some v)) = true := by
      rw [hshow _ (by decide)]
      exact validGrowth_growth hsound
    have hprivacy : validPrivacy (optionalGet "privacy" (some v)) = true := by
      rw [hshow _ (by decide)]
      exact validPrivacy_privacyValue
    have hattested : validAttestation (optionalGet "attestation" (some v)) = true := by
      rw [hattestation]
      exact validAttestation_signature (K.sign_shape _)
    unfold validGroveSnapshot
    simp only [hobserved, hhistory, hkeys, hattested, hvalid, hend, hnow, List.length_map, hlength, hcap,
      hvschema, hvnetwork, hsource, hnodes, hgrowth, hprivacy, decide_true, Bool.and_self]
  · unfold verifyGroveSnapshot
    have hsignature : optionalGet "signature" (optionalGet "attestation" (some v)) =
        some (.str (K.sign payload.stringify)) := by
      rw [hattestation]
      rfl
    obtain ⟨fields, hfields, hpay⟩ := Option.bind_eq_some_iff.mp hpayload
    have hone : isText GROVE_SCHEMA_V2 (optionalGet "schema" (some (.obj p.fields))) = false := by
      rw [show optionalGet "schema" (some (.obj p.fields)) = some (.str p.schema) from
        fields_get p (by decide) (by decide), hschema]
      decide
    rw [hone] at hpay
    obtain rfl := Option.some.inj (show some (Json.obj fields) = some payload from hpay)
    rw [hsigning, hfields, hsignature]
    exact K.verify_sign _

end Accepted

/-! ### All collections -/

section Runs

variable (X : Sections) (K : GroveKey) (dateParse : DateParse) (toLowerCase : String → String)

/-- One collection.  The file that it reads as the snapshot before may be anybody's, short of a forged signature. -/
inductive CollectStep : List PublicSnapshot → PublicSnapshot × Value → List PublicSnapshot → Prop where
  | collect {s : List PublicSnapshot} {fleet : FleetResult} {c : Collection} {relay : Option Value}
      {p : PublicSnapshot} {v : Value} :
      Unforged X K s c.previous → relayOf X fleet c = some relay →
      buildPublicGroveSnapshot X K dateParse toLowerCase fleet.directory (c.options relay) = .ok p →
      collectPublicGrove X K dateParse toLowerCase fleet c = .ok v →
      CollectStep s (p, v) (s ++ [p])

variable {X K dateParse toLowerCase} {fleet : FleetResult} {c : Collection} {o : Options} {p : PublicSnapshot}
  {v : Value} {relay : Option Value} {s t : List PublicSnapshot} {trace : List (PublicSnapshot × Value)}

lemma collect_attests (hrelay : relayOf X fleet c = some relay)
    (hbuild : buildPublicGroveSnapshot X K dateParse toLowerCase fleet.directory (c.options relay) = .ok p)
    (h : collectPublicGrove X K dateParse toLowerCase fleet c = .ok v) : attest X K p.fields = some v := by
  unfold collectPublicGrove at h
  split at h
  · cases h
  rw [hrelay] at h
  dsimp only at h
  rw [hbuild] at h
  dsimp only at h
  cases hattest : attest X K p.fields with
  | none =>
    rw [hattest] at h
    cases h
  | some w =>
    rw [hattest] at h
    exact congrArg some (Except.ok.inj h)

lemma collect_ok
    (hfleet : (!fleet.ok || !fleet.signerOk || !fleet.directoryFresh || !(fleet.directory.any Value.truthy)) = false)
    (hrelay : relayOf X fleet c = some relay)
    (hbuild : buildPublicGroveSnapshot X K dateParse toLowerCase fleet.directory (c.options relay) = .ok p)
    (hattest : attest X K p.fields = some v) : collectPublicGrove X K dateParse toLowerCase fleet c = .ok v := by
  unfold collectPublicGrove
  rw [hfleet, if_neg Bool.false_ne_true, hrelay]
  dsimp only
  rw [hbuild]
  dsimp only
  rw [hattest]
  rfl

/-- What is published of a directory is how many gateways it lists. -/
theorem build_of_count {directory directory' : Option Value} {gateways gateways' : List Value}
    (h : optionalGet "gateways" directory = some (.arr gateways))
    (h' : optionalGet "gateways" directory' = some (.arr gateways')) (hcount : gateways.length = gateways'.length) :
    buildPublicGroveSnapshot X K dateParse toLowerCase directory o =
      buildPublicGroveSnapshot X K dateParse toLowerCase directory' o := by
  unfold buildPublicGroveSnapshot
  rw [h, h']
  dsimp only
  rw [hcount]

lemma SnapshotSound.mono {ms : ℤ} (h : SnapshotSound dateParse s p ms) (hsub : ∀ q ∈ s, q ∈ t) :
    SnapshotSound dateParse t p ms := by
  refine { h with observedBy := fun u hu => ?_ }
  obtain ⟨q, hq, hrest⟩ := h.observedBy u hu
  exact ⟨q, hsub q hq, hrest⟩

/-- After every run the snapshots that were published are those of the labels, and each is sound among them. -/
lemma run_published (hd : ReadsIso dateParse) (hrun : Run (CollectStep X K dateParse toLowerCase) [] trace s) :
    s = trace.map Prod.fst ∧ ∀ q ∈ s, ∃ ms, SnapshotSound dateParse s q ms := by
  induction hrun with
  | nil => exact ⟨rfl, fun q hq => by cases hq⟩
  | snoc _ hstep ih =>
    obtain ⟨hs, hsound⟩ := ih
    cases hstep with
    | collect hunforged hrelay hbuild hcollect =>
      refine ⟨by rw [List.map_append, ← hs]; rfl, fun q hq => ?_⟩
      rcases List.mem_append.mp hq with hold | hnew
      · obtain ⟨ms, hq⟩ := hsound q hold
        exact ⟨ms, hq.mono fun r hr => List.mem_append_left _ hr⟩
      · obtain rfl := List.mem_singleton.mp hnew
        exact build_sound hd hsound hunforged hbuild

/-- No more node-hours are published than a day of the largest count that was observed. -/
lemma SnapshotSound.hours_le {ms bound hours : ℤ} (hsound : SnapshotSound dateParse s p ms)
    (hbound : ∀ q ∈ s, q.network = p.network → (q.announced : ℤ) ≤ bound) (h : p.announcedNodeHours = some hours) :
    0 ≤ hours ∧ hours ≤ bound * 24 := by
  refine aggregateAnnouncedNodeHours_le bound hsound.sorted (fun t ht => ?_) (hsound.hours.symm.trans h)
  obtain ⟨q, hq, -, hcount, hnetwork, -⟩ := hsound.observedBy t ht
  rw [← hcount]
  exact hbound q hq hnetwork

/-- Whatever files are put in the place of the snapshot before, every sample that is published was observed by this
collection or an earlier one of the same network, what is signed is verified, and the site accepts it. -/
theorem every_snapshot_accepted (hd : ReadsIso dateParse)
    (hrun : Run (CollectStep X K dateParse toLowerCase) [] trace s)
    {before after : List (PublicSnapshot × Value)} (htrace : trace = before ++ (p, v) :: after) :
    ∃ ms, SnapshotSound dateParse (before.map Prod.fst ++ [p]) p ms ∧
      (∀ bound hours : ℤ, (∀ q ∈ before.map Prod.fst ++ [p], q.network = p.network → (q.announced : ℤ) ≤ bound) →
        p.announcedNodeHours = some hours → 0 ≤ hours ∧ hours ≤ bound * 24) ∧
      verifyPublicGroveAttestation X K (some v) = true ∧
      (p.relay = none → p.network = GROVE_NETWORK → ∀ now, ms ≤ now + 5 * MINUTE_MS →
        validGroveSnapshot dateParse (some v) now = true ∧ verifyGroveSnapshot K (some v) = true) := by
  subst htrace
  obtain ⟨u, hbefore, hrest⟩ := hrun.split
  obtain ⟨w, hstep, -⟩ := hrest.uncons
  obtain ⟨rfl, hall⟩ := run_published hd hbefore
  cases hstep with
  | collect hunforged hrelayed hbuild hcollect =>
    obtain ⟨ms, hsound⟩ := build_sound hd hall hunforged hbuild
    have hattest := collect_attests hrelayed hbuild hcollect
    obtain ⟨-, -, -, -, -, hverified⟩ := attest_verified hattest
    refine ⟨ms, hsound, fun bound hours hbound hhours => hsound.hours_le hbound hhours, hverified,
      fun hrelay hnetwork now hnow => ?_⟩
    obtain ⟨-, -, -, -, -, -, hschema, -, hcadence, -, -, -, -, horelay, -, honchain⟩ := build_ok hbuild
    have hfirst : p.schema = GROVE_SCHEMA := by
      rw [hschema, ← horelay, hrelay]
      rfl
    exact site_accepts hd hsound hattest hfirst hnetwork hcadence hrelay (honchain hrelay) hnow

end Runs

/-! ### A first snapshot -/

/-- The dates that `toISOString` writes. -/
def isoParse : DateParse
  | some (.str s) => IsoDate.parseIso s.toList
  | _ => none

lemma isoParse_reads : ReadsIso isoParse := by
  intro ms text h
  obtain ⟨chars, hchars, rfl⟩ := Option.map_eq_some_iff.mp h
  show IsoDate.parseIso (String.ofList chars).toList = some ms
  rw [String.toList_ofList]
  exact IsoDate.parseIso_toISOString hchars

def sampleKey : GroveKey where
  sign _ := String.ofList (List.replicate 86 'A' ++ ['=', '='])
  verify _ signature := signature == String.ofList (List.replicate 86 'A' ++ ['=', '='])
  sign_shape _ := by
    unfold signatureShape
    rw [String.toList_ofList]
    decide
  verify_sign _ := beq_self_eq_true _

def noSections : Sections := ⟨fun _ _ => none, fun _ => none, fun _ => none, fun _ _ => false, fun _ _ => false⟩

def sampleFleet : FleetResult := ⟨true, true, true, some (.obj [("gateways", .arr [.null])])⟩

def sampleCollection : Collection := ⟨none, "sepolia", 1767226496789, none, none⟩

def sampleOptions : Options := sampleCollection.options none

def sampleSnapshot : PublicSnapshot where
  schema := GROVE_SCHEMA
  network := "sepolia"
  observedAt := "2026-01-01T00:00:00.000Z"
  cadenceMinutes := 15
  announced := 1
  announcedNodeHours := none
  history := [⟨"2026-01-01T00:00:00.000Z", 1⟩]
  relay := none
  onchain := none

lemma sample_observed : iso 1767225600000 = some "2026-01-01T00:00:00.000Z" := by decide

lemma sample_history : scrubSamples isoParse 1767225600000 GROVE_HISTORY_CAP
    (([] ++ [(⟨"2026-01-01T00:00:00.000Z", 1⟩ : Sample)]).map Sample.value) = [⟨"2026-01-01T00:00:00.000Z", 1⟩] := by
  have htime : timeOf isoParse ⟨"2026-01-01T00:00:00.000Z", 1⟩ = 1767225600000 :=
    timeOf_iso isoParse_reads sample_observed
  have hread : readSample isoParse 1767225600000 (Sample.value ⟨"2026-01-01T00:00:00.000Z", 1⟩) =
      some ⟨"2026-01-01T00:00:00.000Z", 1⟩ := by
    rw [readSample_value isoParse_reads ⟨by rw [htime]; exact sample_observed, by decide⟩, htime]
    decide
  unfold scrubSamples
  simp [hread, OrderedMap.ofList, OrderedMap.set, OrderedMap.empty, OrderedMap.keys]

lemma sample_built : buildPublicGroveSnapshot noSections sampleKey isoParse id sampleFleet.directory
    sampleOptions = .ok sampleSnapshot := by
  have hcarried : scrubGroveHistory isoParse (if compatible noSections sampleKey
      (publicNetwork id sampleOptions.network) sampleOptions.cadenceMinutes sampleOptions.previous then
        sampleOptions.previous else none) 1767225600000 GROVE_HISTORY_CAP = [] := by
    rw [show sampleOptions.previous = none from rfl, ite_self]
    rfl
  have hnetwork : publicNetwork id sampleOptions.network = "sepolia" := by decide
  unfold buildPublicGroveSnapshot
  rw [show optionalGet "gateways" sampleFleet.directory = some (.arr [.null]) from rfl]
  dsimp only
  rw [if_neg (by decide), show sampleOptions.observedAt / (sampleOptions.cadenceMinutes * MINUTE_MS) *
    (sampleOptions.cadenceMinutes * MINUTE_MS) = 1767225600000 by decide, sample_observed]
  dsimp only
  rw [hcarried, show [(Json.null : Value)].length = 1 from rfl, sample_history, hnetwork]
  rfl

/-- A first snapshot is accepted by the site. -/
theorem every_snapshot_accepted_first : ∃ v, Run (CollectStep noSections sampleKey isoParse id) []
    [(sampleSnapshot, v)] [sampleSnapshot] ∧ verifyPublicGroveAttestation noSections sampleKey (some v) = true ∧
    validGroveSnapshot isoParse (some v) 1767225600000 = true ∧ verifyGroveSnapshot sampleKey (some v) = true := by
  obtain ⟨v, hv⟩ : ∃ v, attest noSections sampleKey sampleSnapshot.fields = some v := ⟨_, rfl⟩
  have hcollect : collectPublicGrove noSections sampleKey isoParse id sampleFleet sampleCollection = .ok v :=
    collect_ok rfl rfl sample_built hv
  have hrun : Run (CollectStep noSections sampleKey isoParse id) [] [(sampleSnapshot, v)] [sampleSnapshot] :=
    Run.single (.collect (fun h => absurd h (by decide)) rfl sample_built hcollect)
  obtain ⟨ms, hsound, -, hverified, haccepted⟩ :=
    every_snapshot_accepted isoParse_reads hrun (List.nil_append [(sampleSnapshot, v)]).symm
  have hms : some ms = some 1767225600000 :=
    (isoParse_reads _ _ hsound.observed).symm.trans (isoParse_reads _ _ sample_observed)
  exact ⟨v, hrun, hverified, haccepted rfl rfl 1767225600000 (by rw [Option.some.inj hms]; decide)⟩

end ShadeTree.Grove.Snapshot
