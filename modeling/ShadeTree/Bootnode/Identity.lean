import Mathlib
import ShadeTree.Bootnode.Calls

/-!
# One entry for each key

A gateway is its key, and the registry knows it by the text of its onion.  The decoder reads the same key from
several texts: it lowers the case, and does not ask for the suffix.  Two spellings of one onion are two
gateways to the map.  The registry has one entry for a key as long as the onions that enter are spelled as
the listed ones, and so if they all are what `ONION_RE` describes.
-/

namespace ShadeTree.Bootnode

open ShadeTree.Lib

variable {T : Type} {K : Keys}

/-- The onion decodes to the key. -/
def Decodes (K : Keys) (onion : String) (key : List ℕ) : Prop := onionToPubkey K.checksum onion = .ok key

instance (onion : String) (key : List ℕ) : Decidable (Decodes K onion key) :=
  inferInstanceAs (Decidable (_ = _))

/-- Two listed onions of one key are equal. -/
def OneEntryPerKey (s : System T K) : Prop :=
  ∀ onion ∈ s.registry.live, ∀ onion' ∈ s.registry.live, ∀ key,
    Decodes K onion key → Decodes K onion' key → onion = onion'

/-- The weights under one key in a directory, added up. -/
def share (key : List ℕ) (directory : Table String (Entry K)) : ℚ :=
  ((Table.keep (fun onion _ => decide (Decodes K onion key)) directory).entries.map fun e => e.2.weight).sum

/-- **The condition.** If the key of a record that enters is listed, it is listed under the onion of the
record. -/
def SpelledAsListed (s : System T K) (e : Event T K) : Prop :=
  match e.accepts with
  | none => True
  | some (_, c) => ∀ onion ∈ s.registry.live.keys, Decodes K onion c.pubkey → onion = c.onion

instance (s : System T K) (e : Event T K) : Decidable (SpelledAsListed s e) :=
  match h : e.accepts with
  | none => .isTrue (by simp [SpelledAsListed, h])
  | some (_, c) =>
    decidable_of_iff (∀ onion ∈ s.registry.live.keys, Decodes K onion c.pubkey → onion = c.onion) (by
      simp [SpelledAsListed, h])

/-- A record that enters has an address of the one form. -/
def EntersCanonical (_ : System T K) (e : Event T K) : Prop :=
  ∀ source c, e.accepts = some (source, c) → ONION_RE c.onion

variable {C : RegistryConfig} {clock : ℤ} [DecidableEq T] {s u : System T K} {e : Event T K}
  {tr : List (Event T K)}

/-- What is listed after a step was listed before or enters. -/
lemma Step.listed (hst : Step C s e u) {onion : String} (h : onion ∈ u.registry.live) :
    onion ∈ s.registry.live ∨ ∃ source c, e.accepts = some (source, c) ∧ onion = c.onion := by
  rcases hst.live with ⟨t, source, c, operator, staked, rfl, -, -, hlive⟩ | ⟨-, p, hlive⟩
  · rw [hlive, AList.mem_insert] at h
    exact h.symm.imp_right fun heq => ⟨source, c, rfl, heq⟩
  · rw [hlive] at h
    obtain ⟨entry, hlookup⟩ := Option.isSome_iff_exists.mp (AList.lookup_isSome.mpr h)
    exact .inl (Table.mem_of_lookup (Table.lookup_keep_eq_some.mp hlookup).1)

/-- The next step keeps the entries of a key one exactly if what it enters is spelled as listed. -/
lemma OneEntryPerKey.step_iff (h : OneEntryPerKey s) (hst : Step C s e u) :
    OneEntryPerKey u ↔ SpelledAsListed s e := by
  rcases hst.live with ⟨t, source, c, operator, staked, rfl, -, -, hlive⟩ | ⟨hnone, p, hlive⟩
  · show OneEntryPerKey u ↔ ∀ onion ∈ s.registry.live.keys, Decodes K onion c.pubkey → onion = c.onion
    constructor
    · intro hone onion hmem hkey
      refine hone onion ?_ c.onion ?_ c.pubkey hkey c.pubkey_eq
      · rw [hlive, AList.mem_insert]
        exact .inr (AList.mem_keys.mpr hmem)
      · rw [hlive, AList.mem_insert]
        exact .inl rfl
    · intro hspelled onion hmem onion' hmem' key hkey hkey'
      have hnew : ∀ {o}, o ∈ s.registry.live → Decodes K o key → Decodes K c.onion key → o = c.onion := by
        intro o ho hdec hc
        obtain rfl : c.pubkey = key := Except.ok.inj (c.pubkey_eq.symm.trans hc)
        exact hspelled o (AList.mem_keys.mp ho) hdec
      rw [hlive, AList.mem_insert] at hmem hmem'
      rcases hmem with rfl | hold
      · rcases hmem' with rfl | hold'
        · rfl
        · exact (hnew hold' hkey' hkey).symm
      · rcases hmem' with rfl | hold'
        · exact hnew hold hkey hkey'
        · exact h onion hold onion' hold' key hkey hkey'
  · refine iff_of_true ?_ (by unfold SpelledAsListed; rw [hnone]; trivial)
    have hsub : ∀ {o}, o ∈ u.registry.live → o ∈ s.registry.live := by
      intro o ho
      rcases hst.listed ho with hold | ⟨source, c, hsome, -⟩
      · exact hold
      · rw [hnone] at hsome
        cases hsome
    exact fun onion hmem onion' hmem' => h onion (hsub hmem) onion' (hsub hmem')

/-- Every weight is clamped. -/
lemma weight_clamped (h : Run (Step C) (System.start C clock) tr s) :
    ∀ onion entry, s.registry.live.lookup onion = some entry → 0 ≤ entry.weight ∧ entry.weight ≤ MAX_WEIGHT := by
  refine h.invariant_state (I := fun s => ∀ onion entry, s.registry.live.lookup onion = some entry →
    0 ≤ entry.weight ∧ entry.weight ≤ MAX_WEIGHT) (fun onion entry hlookup => ?_) ?_
  · cases hlookup
  · intro s e u hclamped hst
    refine hst.forall_entry (P := fun entry => 0 ≤ entry.weight ∧ entry.weight ≤ MAX_WEIGHT) hclamped ?_
    exact fun _ _ _ _ _ _ => ⟨le_max_left _ _, max_le (by decide) (min_le_left _ _)⟩

omit [DecidableEq T] in
/-- A key with one entry has one weight in a directory. -/
lemma share_le (hone : OneEntryPerKey s)
    (hclamped : ∀ onion entry, s.registry.live.lookup onion = some entry → entry.weight ≤ MAX_WEIGHT)
    (key : List ℕ) : share key (s.registry.directory C clock) ≤ MAX_WEIGHT := by
  have hlisted : ∀ {onion entry}, (Table.keep (fun onion _ => decide (Decodes K onion key))
      (s.registry.directory C clock)).lookup onion = some entry →
      s.registry.live.lookup onion = some entry ∧ Decodes K onion key := by
    intro onion entry hlookup
    obtain ⟨hdirectory, hkey⟩ := Table.lookup_keep_eq_some.mp hlookup
    rw [Registry.directory_eq] at hdirectory
    exact ⟨(Table.lookup_keep_eq_some.mp hdirectory).1, of_decide_eq_true hkey⟩
  have hsize : Table.size (Table.keep (fun onion _ => decide (Decodes K onion key))
      (s.registry.directory C clock)) ≤ 1 := by
    refine Table.size_le_one fun onion hmem onion' hmem' => ?_
    obtain ⟨entry, hlookup⟩ := Option.isSome_iff_exists.mp (AList.lookup_isSome.mpr hmem)
    obtain ⟨entry', hlookup'⟩ := Option.isSome_iff_exists.mp (AList.lookup_isSome.mpr hmem')
    obtain ⟨hlive, hkey⟩ := hlisted hlookup
    obtain ⟨hlive', hkey'⟩ := hlisted hlookup'
    exact hone onion (Table.mem_of_lookup hlive) onion' (Table.mem_of_lookup hlive') key hkey hkey'
  unfold share
  unfold Table.size at hsize
  generalize hkeep : Table.keep (fun onion _ => decide (Decodes K onion key))
    (s.registry.directory C clock) = kept at hlisted hsize
  obtain ⟨entries, hnodup⟩ := kept
  cases entries with
  | nil => exact show (0 : ℚ) ≤ 1000 by norm_num
  | cons e rest =>
    obtain rfl : rest = [] := List.eq_nil_of_length_eq_zero (by simpa using hsize)
    have hlookup := (hlisted (AList.mem_lookup_iff.mpr List.mem_cons_self)).1
    simpa using hclamped e.1 e.2 hlookup

/-- **Identity.** As long as every onion that enters is spelled as it is listed, a key has one entry, and one
clamped weight in every directory; one that is not gives the key a second entry. -/
theorem one_entry_per_key_iff_spelled (C : RegistryConfig) (clock : ℤ)
    (h : Run (Restrict (Step C) SpelledAsListed) (System.start C clock) tr s) :
    OneEntryPerKey s ∧ (∀ clock key, share key (s.registry.directory C clock) ≤ MAX_WEIGHT) ∧
    ∀ e u, Step C s e u → (OneEntryPerKey u ↔ SpelledAsListed s e) := by
  have hone : OneEntryPerKey s := by
    refine h.invariant_state (I := OneEntryPerKey) (fun onion hmem => ?_) ?_
    · cases hmem
    · exact fun t e u hone hst => (hone.step_iff hst.2).mpr hst.1
  have hclamped := weight_clamped h.forget
  exact ⟨hone, fun clock key => share_le hone (fun onion entry hl => (hclamped onion entry hl).2) key,
    fun e u hst => hone.step_iff hst⟩

/-- Two gateways announce themselves, the first of them twice. -/
theorem one_entry_per_key_iff_spelled_twice : ∃ tr, ∃ s : System ℕ signedKeys,
    Run (Restrict (Step (openConfig 10)) SpelledAsListed) (System.start (openConfig 10) 0) tr s ∧
    Table.size s.registry.live = 2 ∧ OneEntryPerKey s := by
  obtain ⟨tr, s, hrun, hsize⟩ := System.exists_run (openConfig 10)
    (System.start (openConfig 10) 0 : System ℕ signedKeys) SpelledAsListed
    [.announce 0 (some (plainRecord zeroOnion 60 "n")), .write 0,
      .announce 0 (some (plainRecord eightOnion 60 "n")), .write 0, .tick 10000,
      .announce 0 (some (plainRecord zeroOnion 70 "m")), .write 0]
    (fun _ s => Table.size s.registry.live = 2) (by decide +kernel)
  exact ⟨tr, s, hrun, hsize, (one_entry_per_key_iff_spelled (openConfig 10) 0 hrun).1⟩

/-- The address of the key that is all zeros, in capitals. -/
def zeroOnionCapitals : String := "AAAAAAAAAAAAAAAAAAAAAAAAAAAAAAAAAAAAAAAAAAAAAAAAAAAM2DQD.onion"

/-- A gateway that announces itself in small letters and in capitals is listed twice. -/
theorem one_key_listed_twice : ¬ ∀ (tr : List (Event ℕ signedKeys)) (s : System ℕ signedKeys),
    Run (Step (openConfig 10)) (System.start (openConfig 10) 0) tr s → OneEntryPerKey s := by
  intro hall
  obtain ⟨tr, s, hrun, hsmall, hcapitals⟩ := System.exists_run (openConfig 10)
    (System.start (openConfig 10) 0 : System ℕ signedKeys) (fun _ _ => True)
    [.announce 0 (some (plainRecord zeroOnion 60 "n")), .write 0,
      .announce 0 (some (plainRecord zeroOnionCapitals 60 "n")), .write 0]
    (fun _ s => zeroOnion ∈ s.registry.live ∧ zeroOnionCapitals ∈ s.registry.live) (by decide +kernel)
  have hone := hall tr s hrun.forget zeroOnion hsmall zeroOnionCapitals hcapitals (List.replicate 32 0)
    (by decide +kernel) (by decide +kernel)
  exact absurd hone (by decide +kernel)

/-- Addresses of the one form are one for each key. -/
theorem one_entry_per_canonical_key (h : Run (Restrict (Step C) EntersCanonical) (System.start C clock) tr s) :
    OneEntryPerKey s := by
  have hcanonical : ∀ onion ∈ s.registry.live, ONION_RE onion := by
    refine h.invariant_state (I := fun s => ∀ onion ∈ s.registry.live, ONION_RE onion) (fun onion hmem => ?_) ?_
    · cases hmem
    · intro s e u hall hst onion hmem
      rcases hst.2.listed hmem with hold | ⟨source, c, haccepts, rfl⟩
      · exact hall onion hold
      · exact hst.1 source c haccepts
  intro onion hmem onion' hmem' key hkey hkey'
  exact onionToPubkey_inj hkey hkey' (hcanonical onion hmem) (hcanonical onion' hmem')

end ShadeTree.Bootnode
