import ShadeTree.Contracts.PoseidonT3
import ShadeTree.Lib.Table
import ShadeTree.Native.Tree
import ShadeTree.Roots.RawLogs

/-!
# Membership from the event log, natively (`rust/shade-tree-client/src/leaves.rs`)

`reconstruct` replays the membership logs of a contract as `reconstructGroup` does: it sorts them by block and log
index, appends a leaf for a registration and zeroes it in place for a removal.  It keeps the members as decimals in
an array of its own and builds its own tree of them at the end.  On the same logs the two replays hold the same
admission set: as many live members, the same leaf at every position, and the same root when a member is live.
-/

namespace ShadeTree.Native

open ShadeTree.Gateway (FIELD)
open ShadeTree.Lib ShadeTree.Roots
open ShadeTree.Lib.MerkleTree (node padded node_map padded_map)

def TREE_DEPTH : ℕ := 20

def REGISTERED : List String :=
  ["0x0dbb6a3ed41d8f3d21e481b86d0e8bbf65a630b7dc4c5ee6c2c1a74561841e6d",
    "0x509c8735bf3647b16c92625a43b5459d0b51845aa0f3ec846f9d24594e7b824b",
    "0x829b3fd9a2105b78eea5138f4d692eb507be107a9b265a9456ea94fb2db9f992",
    "0x9b776d199f09c774f5b205c9bc2ac6f40d508c347aaea919867eeaf06ebef0e9"]

def REMOVED : List String :=
  ["0x971e754215411b0ec07054d759063d876d53872b7d4b37294744e5a776604f37",
    "0x8f2d81dd61a3f7ff90ea7265e45192f03f643615dd2458e287d84aaac222ffe9",
    "0x707cd9719d0c14265b9e456f7add99095401f907e570e5cdd65a92920947c450",
    "0x0a39eb0fcb6a37e10a529e106ae887cbd1721626fa57900170ed0c2437af3797",
    "0xac0c8be2061774c705c517af2a774ab5cb33a2d7fe7054dd4a2728433026029c"]

structure MembersDocument where
  version : ℕ
  members : List String
  deriving DecidableEq

structure DiscoveredMembers where
  document : MembersDocument
  live_count : ℕ
  root : String
  deriving DecidableEq

def to_ascii_lowercase (s : String) : String :=
  String.ofList (s.toList.map fun c => if 'A' ≤ c ∧ c ≤ 'Z' then Char.ofNat (c.toNat + 32) else c)

/-- The variables of the loop of `reconstruct`. -/
structure Members where
  members : List String
  live : Table String ℕ

def Members.new : Members := ⟨[], ∅⟩

section Reconstruct

variable (N : NumBigint)

def hex_number (value : String) : Option ℕ :=
  match value.toList with
  | '0' :: 'x' :: hex | '0' :: 'X' :: hex => N.parse_bytes hex 16
  | hex => N.parse_bytes hex 16

/-- Block and log index of a log, 0 for what is not a number. -/
def log_order (log : RawLog) : ℕ × ℕ :=
  ((log.blockNumber.bind (hex_number N)).getD 0, (log.logIndex.bind (hex_number N)).getD 0)

/-- The order of `sort_by_key(log_order)`: pairs are compared by the first, then by the second. -/
def sorts_before (a b : RawLog) : Prop :=
  (log_order N a).1 < (log_order N b).1 ∨
    (log_order N a).1 = (log_order N b).1 ∧ (log_order N a).2 ≤ (log_order N b).2

instance : DecidableRel (sorts_before N) := fun _ _ => inferInstanceAs (Decidable (_ ∨ _))

/-- One iteration of the loop of `reconstruct`; what panics is an error here. -/
def Members.replay (zero : String) (s : Members) (log : RawLog) : Except String Members :=
  match log.topics with
  | none => .error "membership log missing topics"
  | some topics =>
    match topics.head? with
    | none => .error "membership log missing topic0"
    | some topic0 =>
      match topics[1]? with
      | none => .error "membership log missing indexed commitment"
      | some commitment_hex =>
        match hex_number N commitment_hex with
        | none => .error "membership log has invalid commitment"
        | some big =>
          let topic0 := to_ascii_lowercase topic0
          let commitment := N.to_str_radix big 10
          if REGISTERED.contains topic0 then
            if commitment ∈ s.live then .ok s
            else .ok ⟨s.members ++ [commitment], s.live.insert commitment s.members.length⟩
          else if REMOVED.contains topic0 then
            match s.live.lookup commitment with
            | none => .ok s
            | some index =>
              if index < s.members.length then .ok ⟨s.members.set index zero, s.live.erase commitment⟩
              else .error "index out of bounds"
          else .ok s

def Members.replayAll (zero : String) : Members → List RawLog → Except String Members
  | s, [] => .ok s
  | s, log :: logs =>
    match s.replay N zero log with
    | .error msg => .error msg
    | .ok s' => Members.replayAll zero s' logs

def fieldsOf : List String → Except String (List Fr)
  | [] => .ok []
  | m :: members =>
    match dec_to_fr N m with
    | .error msg => .error msg
    | .ok f =>
      match fieldsOf members with
      | .error msg => .error msg
      | .ok fields => .ok (f :: fields)

variable (poseidon2 : Fr → Fr → Fr) (keccak256 : Bytes → Vector UInt8 32)

/-- The tree that `reconstruct` builds over its members. -/
def treeOf (rln_identifier : ℕ) (fields : List Fr) : MerkleTree :=
  .new poseidon2 keccak256 rln_identifier TREE_DEPTH (by decide) fields

/-- `reconstruct(logs, rln_identifier)`. -/
def reconstruct (logs : List RawLog) (rln_identifier : ℕ) : Except String DiscoveredMembers :=
  let zero := fr_to_dec N (treeOf poseidon2 keccak256 rln_identifier []).zero_value
  let ordered := logs.insertionSort (sorts_before N)
  match Members.new.replayAll N zero ordered with
  | .error msg => .error msg
  | .ok s =>
    match fieldsOf N s.members with
    | .error msg => .error msg
    | .ok fields =>
      .ok ⟨⟨2, s.members⟩, s.live.size, fr_to_dec N (treeOf poseidon2 keccak256 rln_identifier fields).root⟩

end Reconstruct

/-! ### Reading a log -/

section Read

variable (N : NumBigint) {a b raw : RawLog} {l m log : Log}

lemma hex_number_of_hexText {s : String} {n : ℕ} (h : HexText s n) : hex_number N s = some n := by
  obtain ⟨c, cs, hs, hread⟩ := h
  unfold hex_number
  rw [hs]
  exact N.parse_hex c cs n hread

/-- The two ways to lower the case agree on a text in hexadecimal. -/
lemma to_ascii_lowercase_of_hexText {s : String} {n : ℕ} (h : HexText s n) :
    to_ascii_lowercase s = Directory.toLowerCase s := by
  have hchar : ∀ c ∈ s.toList,
      Bootnode.toLowerCase c = [if 'A' ≤ c ∧ c ≤ 'Z' then Char.ofNat (c.toNat + 32) else c] := by
    intro c hc
    have hascii : c.toNat < 128 := by
      rcases h.chars c hc with hc | hc | hc | rfl
      · omega
      · omega
      · omega
      · decide
    have hkelvin : c ≠ '\u212a' := by
      rintro rfl
      exact absurd hascii (by decide)
    have hdotted : c ≠ '\u0130' := by
      rintro rfl
      exact absurd hascii (by decide)
    unfold Bootnode.toLowerCase
    rw [if_neg hkelvin, if_neg hdotted]
    split <;> rfl
  unfold to_ascii_lowercase Directory.toLowerCase
  rw [List.flatMap_congr hchar, ← List.map_eq_flatMap]

/-- The topics of the two lists are the events that `reconstructGroup` takes for registrations and removals. -/
lemma topicOf_lists (topic0 : String) : REGISTERED.contains topic0 = (topicOf topic0).isRegistered ∧
    REMOVED.contains topic0 = (topicOf topic0).isRemoved := by
  have hknown : (TOPIC.all fun e => REGISTERED.contains e.1 == (topicOf e.1).isRegistered &&
      REMOVED.contains e.1 == (topicOf e.1).isRemoved) = true := by decide
  have hlisted : ((REGISTERED ++ REMOVED).all fun t => (TOPIC.map Prod.fst).contains t) = true := by decide
  by_cases hmem : topic0 ∈ TOPIC.map Prod.fst
  · obtain ⟨e, he, rfl⟩ := List.mem_map.mp hmem
    simpa using List.all_eq_true.mp hknown e he
  · have hother : topicOf topic0 = .other := by
      unfold topicOf
      rw [List.lookup_eq_none_iff.mpr fun e he => by
        simpa using fun heq : topic0 = e.1 => hmem (heq ▸ List.mem_map_of_mem he)]
      rfl
    have habsent : ∀ t ∈ REGISTERED ++ REMOVED, t ≠ topic0 := by
      rintro t ht rfl
      exact hmem (by simpa using List.all_eq_true.mp hlisted t ht)
    rw [hother]
    refine ⟨?_, ?_⟩
    · refine Bool.eq_false_iff.mpr fun h => ?_
      exact habsent topic0 (List.mem_append_left _ (by simpa using h)) rfl
    · refine Bool.eq_false_iff.mpr fun h => ?_
      exact habsent topic0 (List.mem_append_right _ (by simpa using h)) rfl

lemma sorts_before_iff (ha : a.Writes l) (hb : b.Writes m) : sorts_before N a b ↔ l.le m := by
  have horder : ∀ {raw : RawLog} {log : Log}, raw.Writes log → log_order N raw = (log.blockNumber, log.logIndex) := by
    intro raw log h
    obtain ⟨s, hs, hblock⟩ := h.blockNumber
    obtain ⟨i, hi, hindex⟩ := h.logIndex
    simp [log_order, hs, hi, hex_number_of_hexText N hblock, hex_number_of_hexText N hindex]
  unfold sorts_before
  rw [horder ha, horder hb]
  rfl

end Read

/-! ### The replay holds the admission set -/

section Mirrors

variable {N : NumBigint} {zero : String} {z : ℕ}

/-- The variables of the loop hold the admission set, its numbers as decimals. -/
structure Mirrors (s : Members) (A : Admission) : Prop where
  members : s.members = A.leaves.map toString
  live : ∀ c : ℕ, s.live.lookup (toString c) = A.liveIndex c
  count : s.live.size = A.active

lemma Mirrors.new : Mirrors Members.new Admission.empty := ⟨rfl, fun _ => rfl, rfl⟩

lemma Mirrors.mem_live {s : Members} {A : Admission} (h : Mirrors s A) {c : ℕ} :
    toString c ∈ s.live ↔ (A.liveIndex c).isSome := by
  rw [← h.live, AList.lookup_isSome]

lemma toString_inj {c d : ℕ} (h : toString c = toString d) : c = d := by
  have hread := congrArg (fun text : String => Nat.ofDigitChars 10 text.toList 0) h
  simpa only [Nat.toString_eq_repr, Nat.toList_repr, Nat.ofDigitChars_ten_toDigits] using hread

/-- One iteration follows the admission set. -/
lemma Mirrors.replay {s : Members} {A : Admission} (h : Mirrors s A) (hA : A.WF) {raw : RawLog} {log : Log}
    (hraw : raw.Writes log) :
    ∃ s', s.replay N (toString z) raw = .ok s' ∧ Mirrors s' (A.apply z log.event) := by
  obtain ⟨topic0, topic1, rest, htopics, ⟨n, htext⟩, htopic, hcommitment⟩ := hraw.topics
  obtain ⟨hregistered, hremoved⟩ := topicOf_lists (to_ascii_lowercase topic0)
  rw [to_ascii_lowercase_of_hexText htext, htopic] at hregistered hremoved
  unfold Members.replay
  simp only [htopics, List.head?_cons, List.getElem?_cons_succ, List.getElem?_cons_zero,
    hex_number_of_hexText N hcommitment, to_ascii_lowercase_of_hexText htext, hregistered, hremoved]
  rw [N.decimal]
  unfold Admission.apply
  by_cases hreg : log.event.topic.isRegistered = true
  · rw [if_pos hreg, if_pos hreg]
    by_cases hlive : (A.liveIndex log.event.commitment).isSome = true
    · rw [if_pos (h.mem_live.mpr hlive), if_pos hlive]
      exact ⟨s, rfl, h⟩
    · have hnew : toString log.event.commitment ∉ s.live := fun hmem => hlive (h.mem_live.mp hmem)
      rw [if_neg hnew, if_neg hlive]
      refine ⟨_, rfl, ?_, fun c => ?_, ?_⟩
      · simp [Admission.append, h.members]
      · by_cases hc : c = log.event.commitment
        · rw [hc, AList.lookup_insert, h.members, List.length_map]
          simp [Admission.append]
        · rw [AList.lookup_insert_ne fun heq => hc (toString_inj heq), h.live]
          simp [Admission.append, hc]
      · rw [Table.size_insert_of_notMem hnew, h.count]
        rfl
  · rw [if_neg hreg, if_neg hreg]
    by_cases hrem : log.event.topic.isRemoved = true
    · rw [if_pos hrem, if_pos hrem, h.live]
      cases hlive : A.liveIndex log.event.commitment with
      | none => exact ⟨s, rfl, h⟩
      | some i =>
        have hbound : i < s.members.length := by
          rw [h.members, List.length_map]
          exact hA.live_lt _ _ hlive
        simp only [if_pos hbound]
        refine ⟨_, rfl, ?_, fun c => ?_, ?_⟩
        · simp [Admission.vacate, h.members, List.map_set]
        · by_cases hc : c = log.event.commitment
          · rw [hc, AList.lookup_erase]
            simp [Admission.vacate]
          · rw [AList.lookup_erase_ne fun heq => hc (toString_inj heq), h.live]
            simp [Admission.vacate, hc]
        · have hmem : toString log.event.commitment ∈ s.live := h.mem_live.mpr (by rw [hlive]; rfl)
          rw [Table.size_erase_of_mem hmem, h.count]
          rfl
    · rw [if_neg hrem, if_neg hrem]
      exact ⟨s, rfl, h⟩

lemma Mirrors.replayAll {s : Members} {A : Admission} (h : Mirrors s A) (hA : A.WF) {raws : List RawLog}
    {logs : List Log} (hraws : List.Forall₂ RawLog.Writes raws logs) :
    ∃ s', s.replayAll N (toString z) raws = .ok s' ∧ Mirrors s' (A.applyAll z (logs.map Log.event)) := by
  induction hraws generalizing s A with
  | nil => exact ⟨s, rfl, h⟩
  | @cons _ log _ _ hraw _ ih =>
    obtain ⟨s₁, hs₁, h₁⟩ := h.replay (N := N) (z := z) hA hraw
    unfold Members.replayAll
    rw [hs₁]
    exact ih h₁ (hA.apply z log.event)

end Mirrors

/-! ### Field elements -/

lemma fieldsOf_decimals (N : NumBigint) (leaves : List ℕ) :
    fieldsOf N (leaves.map toString) = .ok (leaves.map Fr.ofBig) := by
  induction leaves with
  | nil => rfl
  | cons c leaves ih =>
    rw [List.map_cons, fieldsOf, dec_to_fr_decimal]
    simp only [ih, List.map_cons]

/-- The leaves stay field elements. -/
lemma leaves_lt {z : ℕ} (hz : z < FIELD) {A : Admission} (hA : ∀ c ∈ A.leaves, c < FIELD) {es : List MemberEvent}
    (hes : ∀ e ∈ es, e.commitment < FIELD) : ∀ c ∈ (A.applyAll z es).leaves, c < FIELD := by
  induction es generalizing A with
  | nil => exact hA
  | cons e es ih =>
    refine ih ?_ fun e' he' => hes e' (List.mem_cons_of_mem _ he')
    intro c hc
    unfold Admission.apply at hc
    split at hc
    · split at hc
      · exact hA c hc
      · rcases List.mem_append.mp hc with hc | hc
        · exact hA c hc
        · rw [List.mem_singleton.mp hc]
          exact hes e List.mem_cons_self
    · split at hc
      · split at hc
        · exact hA c hc
        · rcases List.mem_or_eq_of_mem_set hc with hc | rfl
          · exact hA c hc
          · exact hz
      · exact hA c hc

/-- The hash of a JavaScript package that takes and gives integers. -/
def onIntegers (poseidon2 : Fr → Fr → Fr) (a b : ℕ) : ℕ := (poseidon2 (.ofBig a) (.ofBig b)).val

/-- The root over field elements, as an integer. -/
lemma node_val (poseidon2 : Fr → Fr → Fr) (z : Fr) {leaves : List ℕ} (h : ∀ c ∈ leaves, c < FIELD) (depth : ℕ) :
    (node poseidon2 (padded z (leaves.map Fr.ofBig)) depth 0).val =
      node (onIntegers poseidon2) (padded z.val leaves) depth 0 := by
  have hhash : ∀ a b : Fr, (poseidon2 a b).val = onIntegers poseidon2 a.val b.val := by
    intro a b
    simp only [onIntegers, Fr.ofBig_val]
  rw [node_map poseidon2 (φ := Fin.val) hhash, padded_map, List.map_map]
  congr 2
  calc leaves.map (Fin.val ∘ Fr.ofBig) = leaves.map id := List.map_congr_left fun c hc => Fr.val_ofBig (h c hc)
    _ = leaves := List.map_id leaves

/-! ### The two replays -/

section Agree

variable (N : NumBigint) (poseidon2 : Fr → Fr → Fr) (keccak256 : Bytes → Vector UInt8 32)

/-- What `reconstruct` returns: the admission set of the events, and the root of the tree over its leaves. -/
theorem reconstruct_holds (rln_identifier : ℕ) {raws : List RawLog} {logs : List Log}
    (hwrites : List.Forall₂ RawLog.Writes raws logs) (hfield : ∀ log ∈ logs, log.event.commitment < FIELD) :
    let z := keccak_hash_to_field keccak256 rln_identifier
    let A := Admission.empty.applyAll z.val ((logs.insertionSort Log.le).map Log.event)
    ∃ d, reconstruct N poseidon2 keccak256 raws rln_identifier = .ok d ∧ d.live_count = A.active ∧
      d.document.members = A.leaves.map toString ∧
      d.root = toString (node (onIntegers poseidon2) (A.leaf z.val) TREE_DEPTH 0) := by
  intro z A
  have hsorted := insertionSort_related (q := sorts_before N) (r := Log.le)
    (fun _ _ _ _ ha hb => sorts_before_iff N ha hb) hwrites
  obtain ⟨s, hs, hmirrors⟩ := (Mirrors.new).replayAll (N := N) (z := z.val) .empty hsorted
  have hleaves : ∀ c ∈ A.leaves, c < FIELD := by
    refine leaves_lt z.isLt (by simp [Admission.empty]) fun e he => ?_
    obtain ⟨log, hlog, rfl⟩ := List.mem_map.mp he
    exact hfield log ((List.mem_insertionSort Log.le).mp hlog)
  have hzero : fr_to_dec N (treeOf poseidon2 keccak256 rln_identifier []).zero_value = toString z.val := by
    unfold fr_to_dec treeOf
    rw [MerkleTree.zero_value_new, N.decimal]
  unfold reconstruct
  simp only [hzero, hs, hmirrors.members, fieldsOf_decimals]
  refine ⟨_, rfl, hmirrors.count, rfl, ?_⟩
  unfold fr_to_dec treeOf
  rw [N.decimal, MerkleTree.root_new, node_val poseidon2 z hleaves]
  rfl

/-- **The two replays agree.** Where the group of the JavaScript package hashes as `poseidon2` does and has the zero
value of the same identifier. -/
theorem reconstruct_agrees (rln_identifier : ℕ)
    (L : RLNGroup (onIntegers poseidon2) (keccak_hash_to_field keccak256 rln_identifier).val TREE_DEPTH)
    (trackFrom : Option ℕ) {raws : List RawLog} {logs : List Log} (hwrites : List.Forall₂ RawLog.Writes raws logs)
    (hfield : ∀ log ∈ logs, log.event.commitment < FIELD)
    (hroom : registrations (logs.map Log.event) ≤ 2 ^ TREE_DEPTH) :
    ∃ d r, reconstruct N poseidon2 keccak256 raws rln_identifier = .ok d ∧
      reconstructRaw L trackFrom raws = .ok r ∧ d.live_count = r.active ∧
      d.document.members = (L.members r.g).map toString ∧ (r.active ≠ 0 → r.root.map toString = some d.root) := by
  obtain ⟨d, hd, hcount, hmembers, hroot⟩ :=
    reconstruct_holds N poseidon2 keccak256 rln_identifier hwrites hfield
  have hperm := ((List.perm_insertionSort Log.le logs).map Log.event).countP_eq fun e => e.topic.isRegistered
  obtain ⟨r, hr, hholds⟩ := (Holds.new (L := L)).loop .empty trackFrom 0
    ((logs.insertionSort Log.le).map Log.event) (Admission.fits_of_registrations (by
      unfold registrations at hroom ⊢
      rw [hperm]
      simpa [Admission.empty] using hroom))
  refine ⟨d, r, hd, ?_, hcount.trans hholds.active.symm, ?_, fun hlive => ?_⟩
  · rw [reconstructRaw_eq hwrites]
    exact hr
  · rw [hmembers, hholds.members]
  · rw [hholds.active] at hlive
    rw [hholds.root, if_neg hlive, hroot]
    rfl

end Agree

/-- The log of an event of the commitment 0x2a, at a block and a log index. -/
def sampleRaw (block index topic0 : String) : RawLog :=
  ⟨some block, some index, some [topic0, "0x000000000000000000000000000000000000000000000000000000000000002a"]⟩

lemma sampleRaw_commitment :
    HexText "0x000000000000000000000000000000000000000000000000000000000000002a" 42 :=
  ⟨'0', List.replicate 61 '0' ++ ['2', 'a'], by decide, by decide⟩

lemma sampleRaw_writes {block index topic0 : String} {b i n : ℕ} {topic : Topic} (hb : HexText block b)
    (hi : HexText index i) (hn : HexText topic0 n) (htopic : topicOf (Directory.toLowerCase topic0) = topic)
    (hknown : topic ≠ .other) : (sampleRaw block index topic0).Writes ⟨b, i, ⟨topic, 42⟩⟩ :=
  ⟨⟨block, rfl, hb⟩, ⟨index, rfl, hi⟩, ⟨topic0, _, [], rfl, ⟨n, hn⟩, htopic, sampleRaw_commitment⟩, hknown⟩

/-- A member that leaves and comes back, the logs in no order, for the identifier 1. -/
theorem reconstruct_agrees_readmitted :
    let poseidon2 := fun a b : Fr => Fr.ofBig (Contracts.PoseidonT3.hash a.val b.val)
    -- the hash of 1, the only number that is hashed
    let keccak256 := fun _ : Bytes => (#v[0xb1, 0x0e, 0x2d, 0x52, 0x76, 0x12, 0x07, 0x3b, 0x26, 0xee, 0xcd, 0xfd,
      0x71, 0x7e, 0x6a, 0x32, 0x0c, 0xf4, 0x4b, 0x4a, 0xfa, 0xc2, 0xb0, 0x73, 0x2d, 0x9f, 0xcb, 0xe2, 0xb7, 0xfa,
      0x0c, 0xf6] : Vector UInt8 32)
    let L := RLNGroup.ofMembers (onIntegers poseidon2) (keccak_hash_to_field keccak256 1).val TREE_DEPTH
    let raws := [sampleRaw "0x1A" "0x3" (REGISTERED.getD 1 ""), sampleRaw "0x1a" "0x1" (REMOVED.getD 0 ""),
      sampleRaw "0x9" "0x0" (REGISTERED.getD 0 "")]
    ∃ d r, reconstruct NumBigint.ofDigits poseidon2 keccak256 raws 1 = .ok d ∧
      reconstructRaw L none raws = .ok r ∧ d.live_count = r.active ∧
      d.document.members = (L.members r.g).map toString ∧ (r.active ≠ 0 → r.root.map toString = some d.root) := by
  intro poseidon2 keccak256 L raws
  have hwrites : List.Forall₂ RawLog.Writes raws
      [⟨26, 3, .registeredV4, 42⟩, ⟨26, 1, .exiting, 42⟩, ⟨9, 0, .registered, 42⟩] := by
    refine .cons ?_ (.cons ?_ (.cons ?_ .nil))
    · exact sampleRaw_writes ⟨'1', ['A'], rfl, rfl⟩ ⟨'3', [], rfl, rfl⟩ ⟨'5', _, rfl, rfl⟩ (by decide)
        (by decide)
    · exact sampleRaw_writes ⟨'1', ['a'], rfl, rfl⟩ ⟨'1', [], rfl, rfl⟩ ⟨'9', _, rfl, rfl⟩ (by decide)
        (by decide)
    · exact sampleRaw_writes ⟨'9', [], rfl, rfl⟩ ⟨'0', [], rfl, rfl⟩ ⟨'0', _, rfl, rfl⟩ (by decide)
        (by decide)
  exact reconstruct_agrees NumBigint.ofDigits poseidon2 keccak256 1 L none hwrites (by decide) (by decide)

end ShadeTree.Native
