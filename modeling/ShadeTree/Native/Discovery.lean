import Mathlib.Data.List.Infix
import ShadeTree.Lib.Paging
import ShadeTree.Native.Leaves

/-!
# The event log, read natively (`fetch_members` in `rust/shade-tree-client/src/leaves.rs`)

The client asks for the head once and reads the logs up to it in windows.  Block numbers have 64 bits, and the cursor
saturates: below the last number of 64 bits reading ends and covers the range whatever the RPC answers, at that
number the cursor cannot get behind the head.
-/

namespace ShadeTree.Native

open ShadeTree.Lib ShadeTree.Lib.Paging ShadeTree.Roots
open ShadeTree.Gateway (hexDigit readDigits)

/-! ### Numbers and texts -/

def U64_MAX : ℕ := 2 ^ 64 - 1

def saturating_add (a b : ℕ) : ℕ := min (a + b) U64_MAX

/-- `trim_start_matches("0x")`. -/
def trim_start_0x : List Char → List Char
  | '0' :: 'x' :: s => trim_start_0x s
  | s => s

/-- `u64::from_str_radix(s, 16)`. -/
def u64_from_hex (s : List Char) : Option UInt64 :=
  let digits :=
    match s with
    | '+' :: s => s
    | s => s
  match digits with
  | [] => none
  | digits =>
    match readDigits 16 hexDigit 0 digits with
    | none => none
    | some n => if n ≤ U64_MAX then some (UInt64.ofNat n) else none

/-- That `hex::decode` succeeds. -/
def decodes (s : List Char) : Bool := s.length % 2 = 0 ∧ s.all fun c => (hexDigit c).isSome

def is_address (address : String) : Bool :=
  address.utf8ByteSize = 42 ∧ ['0', 'x'] <+: address.toList ∧ decodes (address.toList.drop 2)

def range_error (error : String) : Bool :=
  ["block range", "range is too", "range too", "too many results", "response size", "limit exceeded", "query timeout",
    "exceed maximum"].any fun needle => needle.toList <:+: (to_ascii_lowercase error).toList

/-! ### Reading -/

/-- The answers of the RPC: of a block the text of its number; to the request for logs with that id an array, if it
is one. -/
structure Rpc where
  new : Except String Unit
  block : String → Except String (Option String)
  get_logs : ℕ → Window → Except String (Option (List RawLog))

def Rpc.page (rpc : Rpc) (id : ℕ) (w : Window) : Except String (List RawLog) :=
  match rpc.get_logs id w with
  | .ok (some page) => .ok page
  | .ok none => .error "eth_getLogs returned a non-array result"
  | .error e => .error e

-- so that an answer that is no array is not asked for again
example : range_error "eth_getLogs returned a non-array result" = false := by decide

/-- The numbers of the loop of `fetch_members`, for the head. -/
def pager (head : ℕ) : Pager where
  last cursor chunk := min head (saturating_add cursor (chunk - 1))
  next last := saturating_add last 1
  shrink chunk := if 8 < chunk then some (max (chunk / 2) 8) else none

section Fetch

variable (N : NumBigint) (poseidon2 : Fr → Fr → Fr) (keccak256 : Bytes → Vector UInt8 32)

/-- `fetch_members`, with the windows that were answered; nothing when it takes more requests for logs than `fuel`. -/
def fetch_members (fuel : ℕ) (rpc : Rpc) (contract : String) (from_block : UInt64) (block_tag : String)
    (rln_identifier : ℕ) : Option (List (Window × List RawLog) × Except String DiscoveredMembers) :=
  if is_address (to_ascii_lowercase contract) then
    match rpc.new with
    | .error e => some ([], .error e)
    | .ok () =>
      match rpc.block block_tag with
      | .error e => some ([], .error e)
      | .ok none => some ([], .error s!"eth_getBlockByNumber({block_tag}) returned no block")
      | .ok (some to_hex) =>
        match u64_from_hex (trim_start_0x to_hex.toList) with
        | none => some ([], .error s!"bad block number: {to_hex}")
        | some head =>
          if head < from_block then some ([], reconstruct N poseidon2 keccak256 [] rln_identifier)
          else
            -- the request for the head has the id 1
            match readRange (pager head.toNat) range_error rpc.page head.toNat fuel 2 from_block.toNat 10000 [] with
            | none => none
            | some o => some (o.accepted, o.result.bind fun logs => reconstruct N poseidon2 keccak256 logs rln_identifier)
  else some ([], .error s!"not an Ethereum address: {contract}")

/-- What a success shows: the windows that were answered make up the range from the block to the head, and the members
are those of their logs, which are the logs of the range, each once, where the answers are true. -/
def Covered (rpc : Rpc) (from_block head : UInt64) (rln_identifier : ℕ) (accepted : List (Window × List RawLog))
    (result : Except String DiscoveredMembers) : Prop :=
  ∀ d, result = .ok d →
    Tiles ⟨from_block.toNat, head.toNat⟩ (accepted.map Prod.fst) ∧
    (∀ p ∈ accepted, p.1.first ≤ p.1.last ∧ ∃ id, rpc.get_logs id p.1 = .ok (some p.2)) ∧
    reconstruct N poseidon2 keccak256 (accepted.flatMap Prod.snd) rln_identifier = .ok d ∧
    ∀ (blockNumber : RawLog → ℕ) (chain : List RawLog),
      (∀ id w page, rpc.get_logs id w = .ok (some page) → page.Perm (within blockNumber chain w)) →
      (accepted.flatMap Prod.snd).Perm (within blockNumber chain ⟨from_block.toNat, head.toNat⟩)

/-- Whatever an RPC answers that reports this head, `fetch_members` ends, before the ids of the requests run out, and
what it returns covers the range. -/
def Pages (from_block head : UInt64) : Prop :=
  ∀ (rpc : Rpc) (contract block_tag to_hex : String) (rln_identifier : ℕ),
    rpc.block block_tag = .ok (some to_hex) → u64_from_hex (trim_start_0x to_hex.toList) = some head →
    ∃ fuel accepted result, fuel + 1 < 2 ^ 64 ∧
      fetch_members N poseidon2 keccak256 fuel rpc contract from_block block_tag rln_identifier =
        some (accepted, result) ∧
      Covered N poseidon2 keccak256 rpc from_block head rln_identifier accepted result

end Fetch

lemma pager_exact {head : ℕ} (h : head < U64_MAX) : Exact (pager head) head 8 where
  pos := by decide
  last cursor hcursor size hsize := by
    simp only [pager, saturating_add]
    omega
  next last hlast := by
    simp only [pager, saturating_add]
    omega
  shrink size smaller hshrink := by
    by_cases hfloor : 8 < size
    · have : max (size / 2) 8 = smaller := by simpa [pager, hfloor] using hshrink
      omega
    · simp [pager, hfloor] at hshrink

section Pages

variable {N : NumBigint} {poseidon2 : Fr → Fr → Fr} {keccak256 : Bytes → Vector UInt8 32} {rpc : Rpc}
  {from_block head : UInt64} {rln_identifier : ℕ}

lemma page_ok {id : ℕ} {w : Window} {page : List RawLog} (h : rpc.page id w = .ok page) :
    rpc.get_logs id w = .ok (some page) := by
  unfold Rpc.page at h
  split at h
  · next hget => rw [hget, Except.ok.inj h]
  · cases h
  · cases h

/-- The members of the logs that were read. -/
lemma covered_of_read (hhead : head.toNat < U64_MAX) {fuel : ℕ} {o : Outcome String RawLog}
    (h : readRange (pager head.toNat) range_error rpc.page head.toNat fuel 2 from_block.toNat 10000 [] = some o) :
    Covered N poseidon2 keccak256 rpc from_block head rln_identifier o.accepted
      (o.result.bind fun logs => reconstruct N poseidon2 keccak256 logs rln_identifier) := by
  intro d hok
  cases hlogs : o.result with
  | error e => simp [hlogs, Except.bind] at hok
  | ok logs =>
    obtain ⟨pages, hpages, htiles, hasked, rfl⟩ := readRange_tiles (pager_exact hhead) (by decide) h hlogs
    rw [List.nil_append] at hpages
    rw [← hpages] at htiles hasked
    have hanswered : ∀ p ∈ o.accepted, p.1.first ≤ p.1.last ∧ ∃ id, rpc.get_logs id p.1 = .ok (some p.2) := by
      intro p hp
      obtain ⟨hle, id, hid⟩ := hasked p hp
      exact ⟨hle, id, page_ok hid⟩
    refine ⟨htiles, hanswered, by simpa [hlogs, Except.bind] using hok, fun blockNumber chain htrue => ?_⟩
    have hparts : (o.accepted.flatMap Prod.snd).Perm
        ((o.accepted.map Prod.fst).flatMap (within blockNumber chain)) := by
      rw [List.flatMap_map]
      refine List.Perm.flatMap_left _ fun p hp => ?_
      obtain ⟨-, id, hid⟩ := hanswered p hp
      exact htrue id _ _ hid
    exact hparts.trans htiles.perm_within

/-- Without a range there is nothing to read. -/
lemma covered_nil (h : head < from_block) {result : Except String DiscoveredMembers}
    (hresult : ∀ d, result = .ok d → reconstruct N poseidon2 keccak256 [] rln_identifier = .ok d) :
    Covered N poseidon2 keccak256 rpc from_block head rln_identifier [] result := by
  intro d hok
  have hlt : head.toNat < from_block.toNat := UInt64.lt_iff_toNat_lt.mp h
  refine ⟨tiles_nil hlt, by simp, hresult d hok, fun blockNumber chain _ => ?_⟩
  rw [within_of_lt hlt]
  exact .refl _

lemma covered_error {e : String} :
    Covered N poseidon2 keccak256 rpc from_block head rln_identifier [] (.error e) := fun _ h => by cases h

/-- `fetch_members` from the loop on. -/
lemma fetch_members_of_head {fuel : ℕ} {contract block_tag to_hex : String}
    (haddress : is_address (to_ascii_lowercase contract) = true) (hnew : rpc.new = .ok ())
    (hblock : rpc.block block_tag = .ok (some to_hex))
    (hparse : u64_from_hex (trim_start_0x to_hex.toList) = some head) (hrange : ¬head < from_block) :
    fetch_members N poseidon2 keccak256 fuel rpc contract from_block block_tag rln_identifier =
      (readRange (pager head.toNat) range_error rpc.page head.toNat fuel 2 from_block.toNat 10000 []).map fun o =>
        (o.accepted, o.result.bind fun logs => reconstruct N poseidon2 keccak256 logs rln_identifier) := by
  unfold fetch_members
  rw [if_pos haddress]
  simp only [hnew, hblock, hparse, if_neg hrange]
  cases readRange (pager head.toNat) range_error rpc.page head.toNat fuel 2 from_block.toNat 10000 [] <;> rfl

lemma pages_of_lt (hhead : head.toNat < U64_MAX) : Pages N poseidon2 keccak256 from_block head := by
  intro rpc contract block_tag to_hex rln_identifier hblock hparse
  have hfuel : requests head.toNat 8 from_block.toNat 10000 + 1 < 2 ^ 64 := by
    have hle : (head.toNat + 8 - from_block.toNat) / 8 ≤ 2 ^ 61 := by
      unfold U64_MAX at hhead
      omega
    unfold requests
    omega
  refine ⟨requests head.toNat 8 from_block.toNat 10000, ?_⟩
  by_cases haddress : is_address (to_ascii_lowercase contract) = true
  · cases hnew : rpc.new with
    | error e => exact ⟨[], .error e, hfuel, by simp [fetch_members, haddress, hnew], covered_error⟩
    | ok =>
      by_cases hrange : head < from_block
      · refine ⟨[], reconstruct N poseidon2 keccak256 [] rln_identifier, hfuel, ?_, covered_nil hrange fun _ h => h⟩
        simp [fetch_members, haddress, hnew, hblock, hparse, hrange]
      · obtain ⟨o, ho⟩ : ∃ o, readRange (pager head.toNat) range_error rpc.page head.toNat
            (requests head.toNat 8 from_block.toNat 10000) 2 from_block.toNat 10000 [] = some o :=
          readRange_ends (pager_exact hhead) (by decide) le_rfl
        refine ⟨o.accepted, _, hfuel, ?_, covered_of_read hhead ho⟩
        rw [fetch_members_of_head haddress hnew hblock hparse hrange, ho]
        rfl
  · refine ⟨[], .error s!"not an Ethereum address: {contract}", hfuel, ?_, covered_error⟩
    simp [fetch_members, haddress]

end Pages

/-- An RPC whose head has the last number of 64 bits, and that answers every request for logs. -/
def lastHead : Rpc := ⟨.ok (), fun _ => .ok (some "0xffffffffffffffff"), fun _ _ => .ok (some [])⟩

def sampleContract : String := "0x" ++ String.ofList (List.replicate 40 '1')

/-- At the last number of 64 bits the cursor does not get behind the head. -/
lemma fetch_members_lastHead (N : NumBigint) (poseidon2 : Fr → Fr → Fr) (keccak256 : Bytes → Vector UInt8 32)
    (fuel : ℕ) (from_block : UInt64) :
    fetch_members N poseidon2 keccak256 fuel lastHead sampleContract from_block "latest" 1 = none := by
  have hmax : (UInt64.ofNat U64_MAX).toNat = U64_MAX := by decide
  have hfrom : from_block.toNat ≤ U64_MAX := by
    have := from_block.toNat_lt
    unfold U64_MAX
    omega
  have hrange : ¬UInt64.ofNat U64_MAX < from_block := by
    rw [UInt64.lt_iff_toNat_lt, hmax]
    omega
  have hread : readRange (pager U64_MAX) range_error lastHead.page U64_MAX fuel 2 from_block.toNat 10000 [] = none :=
    readRange_none (fun _ _ _ => min_le_right _ _) (fun _ _ => ⟨[], rfl⟩) hfrom
  rw [fetch_members_of_head (by decide) rfl rfl (by decide) hrange, hmax, hread]
  rfl

/-- **Reading natively.** Reading ends and covers the range, for any answers of the RPC, exactly for the heads below
the last number of 64 bits. -/
theorem fetch_members_pages (N : NumBigint) (poseidon2 : Fr → Fr → Fr) (keccak256 : Bytes → Vector UInt8 32)
    (from_block head : UInt64) : Pages N poseidon2 keccak256 from_block head ↔ head.toNat < U64_MAX := by
  constructor
  · intro hpages
    by_contra hge
    have hlast : head = UInt64.ofNat U64_MAX := by
      have := head.toNat_lt
      refine UInt64.toNat_inj.mp ?_
      rw [show (UInt64.ofNat U64_MAX).toNat = U64_MAX by decide]
      unfold U64_MAX at hge ⊢
      omega
    obtain ⟨fuel, accepted, result, -, hsome, -⟩ :=
      hpages lastHead sampleContract "latest" "0xffffffffffffffff" 1 rfl (by rw [hlast]; decide)
    rw [fetch_members_lastHead] at hsome
    cases hsome
  · exact pages_of_lt

/-- An RPC whose head is the last block: no number of requests is enough. -/
theorem fetch_members_never_ends : ¬ ∃ fuel answer, fetch_members .ofDigits (fun a b => a + b)
    (fun _ => .replicate 32 0) fuel lastHead sampleContract (UInt64.ofNat (2 ^ 64 - 20000)) "latest" 1 =
      some answer := by
  rintro ⟨fuel, answer, h⟩
  rw [fetch_members_lastHead] at h
  cases h

end ShadeTree.Native
