import Mathlib

/-!
# The target of a tunnel (`validTarget`, `isPublicEgressAddress`, `resolveEgressTarget` in `gateway/gateway.mjs`)

A target is a host and a port.  The host is resolved once; every answer of the resolver has to be a public
address, and the answers, each once and eight at most, are the addresses the tunnel may dial.  A host that is
an address itself gets the same check.
-/

namespace ShadeTree.Gateway

/-- `validTarget(target, policy)`: the host and the port, or the reason of the refusal. -/
def validTarget (policy : String → ℕ → Bool) (target : Option String) : Except String (String × ℕ) :=
  match target with
  | none => .error "bad-target"
  | some target =>
    let host := target.toList.takeWhile (· ≠ ':')
    match target.toList.dropWhile (· ≠ ':') with
    | ':' :: digits =>
      let port := digits.foldl (fun n c => 10 * n + (c.toNat - '0'.toNat)) 0
      if host ≠ [] ∧ host.all (fun c => c.isAlphanum || c == '.' || c == '-') ∧
          1 ≤ digits.length ∧ digits.length ≤ 5 ∧ digits.all Char.isDigit ∧ 1 ≤ port ∧ port ≤ 65535 then
        if policy (String.ofList host) port then .ok (String.ofList host, port) else .error "bad-target-policy"
      else .error "bad-target"
    | _ => .error "bad-target"

/-! ### Addresses -/

/-- A part of a dotted quad, without a leading zero. -/
def octet (s : List Char) : Option ℕ :=
  let value := s.foldl (fun n c => 10 * n + (c.toNat - '0'.toNat)) 0
  if 1 ≤ s.length ∧ s.length ≤ 3 ∧ s.all Char.isDigit ∧ (s.head? = some '0' → s.length = 1) ∧ value ≤ 255 then
    some value
  else none

/-- `ipv4Int(address)`, of a dotted quad. -/
def ipv4Int (address : List Char) : Option ℕ :=
  match (address.splitOn '.').mapM octet with
  | some [a, b, c, d] => some (((a * 256 + b) * 256 + c) * 256 + d)
  | _ => none

/-- A group of an IPv6 address. -/
def hextet (s : List Char) : Option ℕ :=
  let digit (c : Char) : ℕ :=
    if c.isDigit then c.toNat - '0'.toNat
    else if 'a' ≤ c then c.toNat - 'a'.toNat + 10
    else c.toNat - 'A'.toNat + 10
  if 1 ≤ s.length ∧ s.length ≤ 4 ∧ s.all (fun c => c.isDigit || ('a' ≤ c && c ≤ 'f') || ('A' ≤ c && c ≤ 'F')) then
    some (s.foldl (fun n c => 16 * n + digit c) 0)
  else none

/-- The groups of a list of parts; a dotted quad may be the last and is two. -/
def hextets (quad : Bool) : List (List Char) → Option (List ℕ)
  | [] => some []
  | [part] =>
    if quad ∧ '.' ∈ part then (ipv4Int part).map fun v => [v / 65536, v % 65536]
    else (hextet part).map fun v => [v]
  | part :: parts => do
    let v ← hextet part
    let vs ← hextets quad parts
    return v :: vs

/-- The groups on one side of `::`. -/
def half (quad : Bool) (s : List Char) : Option (List ℕ) :=
  if s = [] then some [] else hextets quad (s.splitOn ':')

/-- The text before the first `::`, and the text after it. -/
def splitDouble : List Char → List Char × Option (List Char)
  | [] => ([], none)
  | ':' :: ':' :: s => ([], some s)
  | c :: s => (c :: (splitDouble s).1, (splitDouble s).2)

/-- The eight groups of an IPv6 address without a zone. -/
def ipv6Words (address : List Char) : Option (List ℕ) :=
  match splitDouble address with
  | (s, none) => (half true s).filter fun words => words.length = 8
  | (s, some s') => do
    let left ← half false s
    let right ← half true s'
    if left.length + right.length < 8 then
      some (left ++ List.replicate (8 - left.length - right.length) 0 ++ right)
    else none

/-- `net.isIP(address)`. -/
def isIP (address : String) : ℕ :=
  let s := address.toList
  let zone := s.dropWhile (· ≠ '%')
  if (ipv4Int s).isSome then 4
  else if (ipv6Words (s.takeWhile (· ≠ '%'))).isSome ∧
      (zone = [] ∨ (2 ≤ zone.length ∧ zone.tail.all fun c => c.isAlphanum || c == '-' || c == '.' || c == ':')) then 6
  else 0

/-- `ipv6BigInt(address)`, of an address that `isIP` takes for one of version 6. -/
def ipv6BigInt (address : List Char) : Option ℕ :=
  (ipv6Words (address.takeWhile (· ≠ '%'))).map fun words => words.foldl (fun value word => value * 65536 + word) 0

def inIpv4Cidr (value : ℕ) (base : String) (pfx : ℕ) : Bool :=
  (ipv4Int base.toList).any fun b => value / 2 ^ (32 - pfx) == b / 2 ^ (32 - pfx)

def inIpv6Cidr (value : ℕ) (base : String) (pfx : ℕ) : Bool :=
  (ipv6BigInt base.toList).any fun b => value / 2 ^ (128 - pfx) == b / 2 ^ (128 - pfx)

def IPV4_NON_PUBLIC : List (String × ℕ) := [
  ("0.0.0.0", 8), ("10.0.0.0", 8), ("100.64.0.0", 10), ("127.0.0.0", 8),
  ("169.254.0.0", 16), ("172.16.0.0", 12), ("192.0.0.0", 24),
  ("192.0.2.0", 24), ("192.31.196.0", 24), ("192.52.193.0", 24),
  ("192.88.99.0", 24), ("192.168.0.0", 16), ("192.175.48.0", 24),
  ("198.18.0.0", 15), ("198.51.100.0", 24), ("203.0.113.0", 24),
  ("224.0.0.0", 4), ("240.0.0.0", 4)]

/-- The special-purpose space inside `2000::/3`. -/
def IPV6_NON_PUBLIC : List (String × ℕ) :=
  [("2001::", 23), ("2001:db8::", 32), ("2002::", 16), ("2620:4f:8000::", 48), ("3fff::", 20)]

def isPublicEgressAddress (address : String) : Bool :=
  if isIP address = 4 then
    (ipv4Int address.toList).any fun value => !IPV4_NON_PUBLIC.any fun block => inIpv4Cidr value block.1 block.2
  else if isIP address = 6 then
    (ipv6BigInt address.toList).any fun value =>
      inIpv6Cidr value "2000::" 3 && !IPV6_NON_PUBLIC.any fun block => inIpv6Cidr value block.1 block.2
  else false

/-- An address that is public is an address. -/
lemma isIP_of_public {address : String} (h : isPublicEgressAddress address = true) : isIP address ≠ 0 := by
  intro hip
  simp [isPublicEgressAddress, hip] at h

example : isPublicEgressAddress "1.1.1.1" = true ∧ isPublicEgressAddress "10.1.2.3" = false ∧
    isPublicEgressAddress "2606:4700::1111" = true ∧ isPublicEgressAddress "::ffff:1.1.1.1" = false := by decide +kernel

/-! ### Resolution -/

def MAX_EGRESS_ADDRESSES : ℕ := 8

/-- An answer of the resolver; the family as text, if it is truthy. -/
structure Answer where
  address : String
  family : Option String
  deriving DecidableEq, Repr

/-- An address to dial. -/
structure Candidate where
  address : String
  family : String
  deriving DecidableEq, Repr

/-- The candidate of an answer. -/
def Answer.candidate (answer : Answer) : Candidate :=
  ⟨answer.address, answer.family.getD (toString (isIP answer.address))⟩

def Candidate.key (c : Candidate) : String := c.family ++ ":" ++ c.address

/-- The candidates whose key is not among those seen, each key once. -/
def dedupe (seen : List String) : List Candidate → List Candidate
  | [] => []
  | c :: cs => if c.key ∈ seen then dedupe seen cs else c :: dedupe (c.key :: seen) cs

/-- The answers that are addresses. -/
def normalized (answers : List (Option Answer)) : List Answer :=
  answers.filterMap fun answer => answer.filter fun a => isIP a.address ≠ 0

/-- `resolveEgressTarget(target, ..)`, once the resolver has answered; `none` when it failed, took too long or
answered with no array.  A host that is an address is not looked up. -/
def resolveEgressTarget (allowPrivateTargets : Bool) (host : String) (answers : Option (List (Option Answer))) :
    Except String (List Candidate) :=
  if isIP host ≠ 0 then
    if !allowPrivateTargets && !isPublicEgressAddress host then .error "bad-target-address"
    else .ok [⟨host, toString (isIP host)⟩]
  else
    match answers with
    | none => .error "bad-target-dns"
    | some answers =>
      if answers = [] then .error "bad-target-dns"
      else if (normalized answers).length ≠ answers.length ∨
          (!allowPrivateTargets && (normalized answers).any fun a => !isPublicEgressAddress a.address) then
        .error "bad-target-address"
      else .ok ((dedupe [] ((normalized answers).map Answer.candidate)).take MAX_EGRESS_ADDRESSES)

lemma dedupe_subset {seen : List String} {cs : List Candidate} {c : Candidate} (h : c ∈ dedupe seen cs) : c ∈ cs := by
  induction cs generalizing seen with
  | nil => exact h
  | cons d cs ih =>
    unfold dedupe at h
    split at h
    · exact List.mem_cons_of_mem _ (ih h)
    · rcases List.mem_cons.mp h with rfl | h
      · exact List.mem_cons_self
      · exact List.mem_cons_of_mem _ (ih h)

/-- No key is seen twice. -/
lemma dedupe_nodup (seen : List String) (cs : List Candidate) :
    ((dedupe seen cs).map Candidate.key).Nodup ∧ ∀ c ∈ dedupe seen cs, c.key ∉ seen := by
  induction cs generalizing seen with
  | nil => exact ⟨List.nodup_nil, fun c h => absurd h (List.not_mem_nil)⟩
  | cons d cs ih =>
    unfold dedupe
    split
    · exact ih seen
    · next hd =>
      obtain ⟨hnodup, hnew⟩ := ih (d.key :: seen)
      refine ⟨List.nodup_cons.mpr ⟨fun hmem => ?_, hnodup⟩, fun c hc => ?_⟩
      · obtain ⟨c, hc, hkey⟩ := List.mem_map.mp hmem
        exact hnew c hc (hkey ▸ List.mem_cons_self)
      · rcases List.mem_cons.mp hc with rfl | hc
        · exact hd
        · exact fun hs => hnew c hc (List.mem_cons_of_mem _ hs)

/-- Every answer has its key among the candidates. -/
lemma exists_mem_dedupe {seen : List String} {cs : List Candidate} {c : Candidate} (h : c ∈ cs) (hs : c.key ∉ seen) :
    ∃ d ∈ dedupe seen cs, d.key = c.key := by
  induction cs generalizing seen with
  | nil => cases h
  | cons d cs ih =>
    unfold dedupe
    by_cases hd : d.key ∈ seen
    · rw [if_pos hd]
      rcases List.mem_cons.mp h with rfl | h
      · exact absurd hd hs
      · exact ih h hs
    · rw [if_neg hd]
      by_cases hkey : c.key = d.key
      · exact ⟨d, List.mem_cons_self, hkey.symm⟩
      · have hmem : c ∈ cs := (List.mem_cons.mp h).resolve_left fun he => hkey (he ▸ rfl)
        obtain ⟨e, he, hek⟩ := ih hmem fun hm => (List.mem_cons.mp hm).elim hkey hs
        exact ⟨e, List.mem_cons_of_mem _ he, hek⟩

/-- The answers are all addresses if none was left out. -/
lemma all_of_length_normalized {answers : List (Option Answer)}
    (h : (normalized answers).length = answers.length) : answers = (normalized answers).map some := by
  induction answers with
  | nil => rfl
  | cons a answers ih =>
    have hle : (normalized answers).length ≤ answers.length := List.length_filterMap_le _ _
    unfold normalized at h hle ih ⊢
    rw [List.filterMap_cons] at h ⊢
    cases ha : a.filter fun a => decide (isIP a.address ≠ 0) with
    | none =>
      rw [ha, List.length_cons] at h
      simp only at h
      omega
    | some b =>
      rw [ha] at h
      simp only [List.length_cons, Nat.add_right_cancel_iff] at h
      obtain ⟨rfl, -⟩ := Option.filter_eq_some_iff.mp ha
      rw [List.map_cons, ← ih h]

/-- **What the tunnel may dial.** Unless private targets are allowed, every answer is a public address; a
candidate is one of the first eight of them that differ, or the host itself. -/
theorem resolveEgressTarget_ok {host : String} {answers : Option (List (Option Answer))} {candidates : List Candidate}
    (h : resolveEgressTarget false host answers = .ok candidates) :
    (isIP host ≠ 0 ∧ isPublicEgressAddress host = true ∧ candidates = [⟨host, toString (isIP host)⟩]) ∨
    (isIP host = 0 ∧ ∃ as : List Answer, as ≠ [] ∧ answers = some (as.map some) ∧
      (∀ a ∈ as, isPublicEgressAddress a.address = true) ∧
      candidates = (dedupe [] (as.map Answer.candidate)).take MAX_EGRESS_ADDRESSES) := by
  unfold resolveEgressTarget at h
  split at h
  · next hip =>
    split at h
    · cases h
    · next hpub =>
      left
      refine ⟨hip, by simpa using hpub, (Except.ok.inj h).symm⟩
  · next hip =>
    right
    refine ⟨not_not.mp hip, ?_⟩
    cases answers with
    | none => cases h
    | some answers =>
      simp only at h
      split at h
      · cases h
      next hne =>
      split at h
      · cases h
      next hall =>
      rw [not_or, not_not] at hall
      obtain ⟨hlen, hpub⟩ := hall
      have hmap := all_of_length_normalized hlen
      refine ⟨normalized answers, fun hnil => hne ?_, congrArg some hmap, fun a ha => ?_, (Except.ok.inj h).symm⟩
      · rw [hmap, hnil]
        rfl
      · by_contra hbad
        exact hpub (by simpa using ⟨a, ha, by simpa using hbad⟩)

end ShadeTree.Gateway
