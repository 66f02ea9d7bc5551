import ShadeTree.Gateway.FleetTally
import ShadeTree.Lib.Script
import ShadeTree.Lib.Text
import ShadeTree.Lib.Utf8

/-!
# The push transport of the tally (`makeHttpTallyTransport` in `gateway/fleet-tally.mjs`)

A gateway pushes what it establishes to the peers it is configured with, in one hop: a request that arrives is
counted in the tally and goes no further.  At most four pushes to a peer and at most 128 altogether are under
way; what finds no room is dropped.  A request is heard if it bears the token of the mesh.
-/

namespace ShadeTree.Gateway

open ShadeTree.Lib

/-! ### One transport -/

/-- `MAX_PEERS`. -/
def maxPeers : ℕ := 64

/-- `MAX_IN_FLIGHT_PER_PEER`. -/
def maxInFlightPerPeer : ℤ := 4

/-- `MAX_IN_FLIGHT_TOTAL`. -/
def maxInFlightTotal : ℤ := 128

def isSchemeChar (c : Char) : Bool := c.isAlphanum || c == '+' || c == '.' || c == '-'

/-- The test `/^[A-Za-z][A-Za-z0-9+.-]*:\/\//`. -/
def hasScheme : List Char → Bool
  | [] => false
  | c :: cs => c.isAlpha && (cs.dropWhile isSchemeChar).take 3 == [':', '/', '/']

def validPeer (peer : String) : Bool :=
  decide (1 ≤ utf16Length peer) && decide (utf16Length peer ≤ 320) && !peer.toList.any Text.isWhiteSpace &&
    !hasScheme peer.toList

def validTallyToken (token : String) : Bool :=
  decide (32 ≤ utf16Length token) && decide (utf16Length token ≤ 256) &&
    token.toList.all fun c => decide (0x21 ≤ c.toNat) && decide (c.toNat ≤ 0x7e)

/-- The test `/^\/[A-Za-z0-9/_-]{0,127}$/`. -/
def validPath : List Char → Bool
  | [] => false
  | c :: cs => c == '/' && decide (cs.length ≤ 127) &&
      cs.all fun c => c.isAlphanum || c == '/' || c == '_' || c == '-'

/-- What a transport is made with. -/
structure TallyEndpoint where
  path : String
  authToken : String
  maxBytes : ℕ
  path_valid : validPath path.toList = true
  token_valid : validTallyToken authToken = true

/-- The variables of a transport. -/
structure TallyTransport where
  peerList : List String
  inFlightByPeer : Table String ℤ
  inFlightTotal : ℤ
  saturatedPeers : List String
  closed : Bool

/-- What becomes of an announcement for one peer. -/
inductive Offer where
  | queued
  | dropped (warned : Bool)
  deriving DecidableEq

namespace TallyTransport

/-- The body of the loop of `publish`. -/
def offer (peer : String) (t : TallyTransport) : TallyTransport × Offer :=
  let peerPending := (t.inFlightByPeer.lookup peer).getD 0
  if maxInFlightPerPeer ≤ peerPending ∨ maxInFlightTotal ≤ t.inFlightTotal then
    if peer ∈ t.saturatedPeers then (t, .dropped false)
    else ({ t with saturatedPeers := peer :: t.saturatedPeers }, .dropped true)
  else
    ({ t with
        inFlightByPeer := t.inFlightByPeer.insert peer (peerPending + 1)
        inFlightTotal := t.inFlightTotal + 1 }, .queued)

def offerAll : List String → TallyTransport → TallyTransport × List (String × Offer)
  | [], t => (t, [])
  | peer :: peers, t =>
    let first := t.offer peer
    let rest := offerAll peers first.1
    (rest.1, (peer, first.2) :: rest.2)

/-- `publish(nullifier, epoch)`. -/
def publish (nullifier epoch : String) (t : TallyTransport) : TallyTransport × List (String × Offer) :=
  if t.closed then (t, [])
  else
    match canonicalTallyField nullifier, canonicalTallyField epoch with
    | some _, some _ => offerAll t.peerList t
    | _, _ => (t, [])

/-- What runs when the push to the peer has succeeded or failed. -/
def settle (peer : String) (t : TallyTransport) : TallyTransport :=
  let held := match t.inFlightByPeer.lookup peer with
    | some held => if held = 0 then 1 else held
    | none => 1
  let left := max 0 (held - 1)
  let total := max 0 (t.inFlightTotal - 1)
  { t with
    inFlightByPeer := if left = 0 then t.inFlightByPeer.erase peer else t.inFlightByPeer.insert peer left
    inFlightTotal := total
    saturatedPeers :=
      if left < maxInFlightPerPeer ∧ total < maxInFlightTotal then t.saturatedPeers.filter (· ≠ peer)
      else t.saturatedPeers }

def addPeer (peer : String) (t : TallyTransport) : TallyTransport × Bool :=
  if t.closed ∨ validPeer peer = false then (t, false)
  else if peer ∈ t.peerList then (t, true)
  else if maxPeers ≤ t.peerList.length then (t, false)
  else ({ t with peerList := t.peerList ++ [peer] }, true)

def close (t : TallyTransport) : TallyTransport :=
  if t.closed then t else { t with closed := true, peerList := [] }

/-- The transport as it is made; `none` when the constructor throws. -/
def make (peers : List String) : Option TallyTransport :=
  if maxPeers < peers.length ∨ peers.any (!validPeer ·) then none
  else some ⟨peers.reverse.dedup.reverse, ∅, 0, [], false⟩

end TallyTransport

/-! ### The endpoint -/

/-- A request as the server reads it: the body in the pieces that arrive, and whether it ends. -/
structure Inbound where
  method : String
  url : String
  authorization : Option String
  contentLength : Option ℕ
  chunks : List (List UInt8)
  ended : Bool

/-- The body read so far and the next pieces; `none` when it grows too big. -/
def readBody (maxBytes : ℕ) : List UInt8 → List (List UInt8) → Option (List UInt8)
  | buf, [] => some buf
  | buf, c :: cs => if maxBytes < (buf ++ c).length then none else readBody maxBytes (buf ++ c) cs

def bearerMatches (header : Option String) (token : String) : Bool :=
  validTallyToken token && header == some ("Bearer " ++ token)

/-- `canonicalTallyField(msg?.key)`. -/
def tallyField (key : String) (msg : Value) : Option String :=
  match msg.get key with
  | some (.str s) => canonicalTallyField s
  | _ => none

/-- The answer of the server, if there is one, and what it delivers to the tally. -/
def serve (parse : String → Option Value) (E : TallyEndpoint) (closed : Bool) (r : Inbound) :
    Option ℕ × Option (String × String) :=
  if closed then (some 503, none)
  else if r.method ≠ "POST" ∨ r.url.toList.takeWhile (· != '?') ≠ E.path.toList then (some 404, none)
  else if !bearerMatches r.authorization E.authToken then (some 401, none)
  else if r.contentLength.any fun n => decide (E.maxBytes < n) then (some 413, none)
  else
    match readBody E.maxBytes [] r.chunks with
    | none => (some 413, none)
    | some buf =>
      if !r.ended then (none, none)
      else
        match parse (Utf8.decode buf) with
        | none => (some 400, none)
        | some msg =>
          match tallyField "nullifier" msg, tallyField "epoch" msg with
          | some n, some k => (some 200, some (n, k))
          | _, _ => (some 400, none)

/-- The body of a push. -/
def announcement (nullifier epoch : String) : Value :=
  .obj [("nullifier", .str nullifier), ("epoch", .str epoch)]

/-- The bytes of a push. -/
def payload (nullifier epoch : String) : List UInt8 :=
  Utf8.encode (String.ofList (announcement nullifier epoch).stringify)

/-- The request that a push makes, in the pieces that arrive. -/
def pushRequest (E : TallyEndpoint) (nullifier epoch : String) (chunks : List (List UInt8)) (ended : Bool) :
    Inbound :=
  ⟨"POST", E.path, some ("Bearer " ++ E.authToken), some (payload nullifier epoch).length, chunks, ended⟩

/-- A body arrives whole or breaks off. -/
def Carries (body : List UInt8) (chunks : List (List UInt8)) (ended : Bool) : Prop :=
  chunks.flatten <+: body ∧ (ended = true → chunks.flatten = body)

/-! ### The counters of a transport -/

/-- The pushes to each peer are counted, and no bound is exceeded. -/
structure Counts (t : TallyTransport) (pending : List String) : Prop where
  byPeer : ∀ p, t.inFlightByPeer.lookup p =
    if pending.count p = 0 then none else some (pending.count p : ℤ)
  total : t.inFlightTotal = pending.length
  perPeer : ∀ p, (pending.count p : ℤ) ≤ maxInFlightPerPeer
  all : (pending.length : ℤ) ≤ maxInFlightTotal

/-- There is no room for a push to the peer. -/
def Full (pending : List String) (peer : String) : Prop :=
  (pending.count peer : ℤ) = maxInFlightPerPeer ∨ (pending.length : ℤ) = maxInFlightTotal

/-- The peers are different, valid and not too many. -/
structure PeersSound (t : TallyTransport) : Prop where
  nodup : t.peerList.Nodup
  length_le : t.peerList.length ≤ maxPeers
  valid : ∀ p ∈ t.peerList, validPeer p = true

/-- The peers whose push was queued. -/
def queuedOf (offers : List (String × Offer)) : List String :=
  (offers.filter fun o => o.2 = .queued).map Prod.fst

section Transport

variable {t : TallyTransport} {pending : List String} {p q : String} (peers : List String)

lemma Counts.perm {pending' : List String} (h : Counts t pending) (hp : pending.Perm pending') :
    Counts t pending' where
  byPeer := fun p => by rw [h.byPeer p, hp.count_eq p]
  total := by rw [h.total, hp.length_eq]
  perPeer := fun p => hp.count_eq p ▸ h.perPeer p
  all := hp.length_eq ▸ h.all

lemma Counts.pending_getD (h : Counts t pending) (p : String) :
    (t.inFlightByPeer.lookup p).getD 0 = pending.count p := by
  rw [h.byPeer p]
  split
  · next hzero =>
    rw [hzero]
    rfl
  · rfl

/-- Nothing leaves room that is full. -/
lemma Full.append (h : Full pending p) {more : List String} (hcounts : Counts t (more ++ pending)) :
    Full (more ++ pending) p := by
  have hper := hcounts.perPeer p
  have hall := hcounts.all
  unfold Full at h ⊢
  rw [List.count_append, List.length_append] at *
  omega

lemma queuedOf_cons (o : String × Offer) (offers : List (String × Offer)) :
    queuedOf (o :: offers) = queuedOf [o] ++ queuedOf offers := by
  unfold queuedOf
  rw [← List.map_append, ← List.filter_append, List.singleton_append]

namespace TallyTransport

lemma offer_frame : (t.offer p).1.peerList = t.peerList ∧ (t.offer p).1.closed = t.closed := by
  unfold offer
  dsimp only
  split
  · split <;> exact ⟨rfl, rfl⟩
  · exact ⟨rfl, rfl⟩

lemma offer_counts (h : Counts t pending) :
    Counts (t.offer p).1 (queuedOf [(p, (t.offer p).2)] ++ pending) := by
  unfold offer
  simp only [h.pending_getD, h.total]
  split
  · split
    · exact h
    · exact ⟨h.byPeer, rfl, h.perPeer, h.all⟩
  · next hroom =>
    rw [not_or, not_le, not_le] at hroom
    have hcount : ∀ q, q ≠ p → (p :: pending).count q = pending.count q :=
      fun q hq => List.count_cons_of_ne (Ne.symm hq)
    show Counts _ (p :: pending)
    refine ⟨fun q => ?_, ?_, fun q => ?_, ?_⟩
    · by_cases hq : q = p
      · subst hq
        rw [AList.lookup_insert, List.count_cons_self, if_neg (Nat.succ_ne_zero _)]
        rfl
      · rw [AList.lookup_insert_ne hq, hcount q hq]
        exact h.byPeer q
    · rw [List.length_cons]
      rfl
    · by_cases hq : q = p
      · subst hq
        rw [List.count_cons_self]
        omega
      · rw [hcount q hq]
        exact h.perPeer q
    · rw [List.length_cons]
      omega

lemma offer_full {warned : Bool} (h : Counts t pending) (hdrop : (t.offer p).2 = .dropped warned) :
    Full pending p := by
  have hper := h.perPeer p
  have hall := h.all
  unfold offer at hdrop
  simp only [h.pending_getD, h.total] at hdrop
  split at hdrop
  · unfold Full
    omega
  · cases hdrop

lemma offer_saturated (hq : q ∈ t.saturatedPeers) : q ∈ (t.offer p).1.saturatedPeers := by
  unfold offer
  dsimp only
  split
  · split
    · exact hq
    · exact List.mem_cons_of_mem _ hq
  · exact hq

lemma offer_warned (hwarn : (t.offer p).2 = .dropped true) :
    p ∉ t.saturatedPeers ∧ p ∈ (t.offer p).1.saturatedPeers := by
  unfold offer at hwarn ⊢
  dsimp only at hwarn ⊢
  split
  · next hfull =>
    rw [if_pos hfull] at hwarn
    split
    · next hsat =>
      rw [if_pos hsat] at hwarn
      cases hwarn
    · next hsat => exact ⟨hsat, List.mem_cons_self⟩
  · next hfull =>
    rw [if_neg hfull] at hwarn
    cases hwarn

lemma offerAll_frame : (offerAll peers t).1.peerList = t.peerList ∧ (offerAll peers t).1.closed = t.closed := by
  induction peers generalizing t with
  | nil => exact ⟨rfl, rfl⟩
  | cons p peers ih => exact ⟨ih.1.trans offer_frame.1, ih.2.trans offer_frame.2⟩

lemma offerAll_peers : (offerAll peers t).2.map Prod.fst = peers := by
  induction peers generalizing t with
  | nil => rfl
  | cons p peers ih => exact congrArg (p :: ·) ih

lemma offerAll_counts (h : Counts t pending) :
    Counts (offerAll peers t).1 (queuedOf (offerAll peers t).2 ++ pending) := by
  induction peers generalizing t pending with
  | nil => exact h
  | cons p peers ih =>
    have hcons : queuedOf (offerAll (p :: peers) t).2 =
        queuedOf [(p, (t.offer p).2)] ++ queuedOf (offerAll peers (t.offer p).1).2 := queuedOf_cons _ _
    refine (ih (offer_counts (p := p) h)).perm ?_
    rw [hcons, ← List.append_assoc]
    exact List.perm_append_comm.append_right pending

lemma offerAll_full {w : Bool} (h : Counts t pending) (hdrop : (q, .dropped w) ∈ (offerAll peers t).2) :
    Full (queuedOf (offerAll peers t).2 ++ pending) q := by
  have hcounts := offerAll_counts peers h
  -- the peer found no room when its turn came, and afterwards there was no more
  suffices hone : ∃ more, Full (more ++ pending) q ∧
      ∃ rest, (rest ++ (more ++ pending)).Perm (queuedOf (offerAll peers t).2 ++ pending) by
    obtain ⟨more, hfull, rest, hperm⟩ := hone
    have hlast := hfull.append (hcounts.perm hperm.symm)
    unfold Full at hlast ⊢
    rwa [hperm.count_eq, hperm.length_eq] at hlast
  clear hcounts
  induction peers generalizing t pending with
  | nil => cases hdrop
  | cons p peers ih =>
    have hcons : queuedOf (offerAll (p :: peers) t).2 =
        queuedOf [(p, (t.offer p).2)] ++ queuedOf (offerAll peers (t.offer p).1).2 := queuedOf_cons _ _
    rcases List.mem_cons.mp hdrop with heq | hrest
    · obtain ⟨rfl, hoffer⟩ := Prod.mk.inj heq
      exact ⟨[], offer_full h hoffer.symm, _, .refl _⟩
    · obtain ⟨more, hfull, rest, hperm⟩ := ih (offer_counts (p := p) h) hrest
      refine ⟨more ++ queuedOf [(p, (t.offer p).2)], by rwa [List.append_assoc], rest, ?_⟩
      rw [List.append_assoc, hcons]
      refine hperm.trans ?_
      rw [← List.append_assoc]
      exact List.perm_append_comm.append_right pending

lemma offerAll_saturated (hq : q ∈ t.saturatedPeers) : q ∈ (offerAll peers t).1.saturatedPeers := by
  induction peers generalizing t with
  | nil => exact hq
  | cons p peers ih => exact ih (offer_saturated hq)

/-- Who is warned of was not saturated before and is saturated now. -/
lemma offerAll_warned (hwarn : (q, .dropped true) ∈ (offerAll peers t).2) :
    q ∉ t.saturatedPeers ∧ q ∈ (offerAll peers t).1.saturatedPeers := by
  induction peers generalizing t with
  | nil => cases hwarn
  | cons p peers ih =>
    rcases List.mem_cons.mp hwarn with heq | hrest
    · obtain ⟨rfl, hoffer⟩ := Prod.mk.inj heq
      obtain ⟨hnot, hsat⟩ := offer_warned hoffer.symm
      exact ⟨hnot, offerAll_saturated peers (t := (t.offer q).1) hsat⟩
    · obtain ⟨hnot, hsat⟩ := ih hrest
      exact ⟨fun hq => hnot (offer_saturated hq), hsat⟩

/-- A call that publishes offers the announcement to every peer, and any other one to nobody. -/
lemma publish_cases (n k : String) (t : TallyTransport) :
    (t.publish n k = offerAll t.peerList t ∧ canonicalTallyField n = some n ∧ canonicalTallyField k = some k) ∨
      t.publish n k = (t, []) := by
  unfold publish
  split
  · exact .inr rfl
  split
  · next n' k' hn hk =>
    obtain rfl := FleetTally.canonicalTallyField_some hn
    obtain rfl := FleetTally.canonicalTallyField_some hk
    exact .inl ⟨rfl, hn, hk⟩
  · exact .inr rfl

/-- The counters go down by the push that settled, and its peer is saturated no more. -/
lemma settle_counts (h : Counts t pending) (hp : p ∈ pending) :
    Counts (t.settle p) (pending.erase p) ∧ (t.settle p).peerList = t.peerList ∧
      ∀ q, q ∈ (t.settle p).saturatedPeers ↔ q ∈ t.saturatedPeers ∧ q ≠ p := by
  have hper := h.perPeer
  have hall := h.all
  have hpos : 0 < pending.count p := List.count_pos_iff.mpr hp
  have hlen : 0 < pending.length := List.length_pos_of_mem hp
  have hlookup : t.inFlightByPeer.lookup p = some (pending.count p : ℤ) := by rw [h.byPeer p, if_neg (by omega)]
  have hleft : max 0 ((pending.count p : ℤ) - 1) = ((pending.erase p).count p : ℤ) := by
    rw [List.count_erase_self]
    omega
  have htotal : max 0 ((pending.length : ℤ) - 1) = ((pending.erase p).length : ℤ) := by
    rw [List.length_erase_of_mem hp]
    omega
  have hcount : ∀ q, q ≠ p → (pending.erase p).count q = pending.count q :=
    fun q hq => List.count_erase_of_ne hq
  have hbound : ((pending.erase p).count p : ℤ) < maxInFlightPerPeer ∧
      ((pending.erase p).length : ℤ) < maxInFlightTotal := by
    have := hper p
    omega
  have hheld : ((pending.count p : ℤ) = 0) = False := by
    rw [eq_iff_iff, iff_false]
    omega
  unfold settle
  simp only [hlookup, hheld, if_false, hleft, h.total, htotal, hbound, and_self, if_true]
  refine ⟨⟨fun q => ?_, rfl, fun q => ?_, hbound.2.le⟩, trivial, fun q => by simp⟩
  · by_cases hq : q = p
    · subst hq
      by_cases hzero : (pending.erase q).count q = 0
      · simp only [hzero, Nat.cast_zero, if_true, AList.lookup_erase]
      · rw [if_neg (by omega), AList.lookup_insert, if_neg hzero]
    · rw [hcount q hq, ← h.byPeer q]
      split
      · exact AList.lookup_erase_ne hq
      · exact AList.lookup_insert_ne hq
  · by_cases hq : q = p
    · subst hq
      exact hbound.1.le
    · rw [hcount q hq]
      exact hper q

lemma settle_saturated (hq : q ∈ t.saturatedPeers) (hne : q ≠ p) : q ∈ (t.settle p).saturatedPeers := by
  have hkept : q ∈ t.saturatedPeers.filter (· ≠ p) := List.mem_filter.mpr ⟨hq, decide_eq_true hne⟩
  unfold settle
  dsimp only
  generalize max 0 (t.inFlightTotal - 1) = total
  repeat' split
  all_goals first | exact hq | exact hkept

lemma addPeer_frame : (t.addPeer p).1.saturatedPeers = t.saturatedPeers ∧
    (t.addPeer p).1.inFlightByPeer = t.inFlightByPeer ∧ (t.addPeer p).1.inFlightTotal = t.inFlightTotal := by
  unfold addPeer
  split_ifs <;> exact ⟨rfl, rfl, rfl⟩

lemma addPeer_sound (h : PeersSound t) : PeersSound (t.addPeer p).1 := by
  unfold addPeer
  split
  · exact h
  next hopen =>
  split
  · exact h
  next hnew =>
  split
  · exact h
  next hroom =>
  rw [not_or, Bool.not_eq_false] at hopen
  refine ⟨?_, ?_, fun q hq => ?_⟩
  · exact List.nodup_append.mpr ⟨h.nodup, List.nodup_singleton p, by
      intro a ha b hb hab
      obtain rfl := List.mem_singleton.mp hb
      exact hnew (hab ▸ ha)⟩
  · rw [List.length_append, List.length_singleton]
    omega
  · rcases List.mem_append.mp hq with hq | hq
    · exact h.valid q hq
    · obtain rfl := List.mem_singleton.mp hq
      exact hopen.2

lemma close_frame : t.close.saturatedPeers = t.saturatedPeers ∧ t.close.inFlightByPeer = t.inFlightByPeer ∧
    t.close.inFlightTotal = t.inFlightTotal := by
  unfold close
  split <;> exact ⟨rfl, rfl, rfl⟩

lemma close_sound (h : PeersSound t) : PeersSound t.close := by
  unfold close
  split
  · exact h
  · exact ⟨List.nodup_nil, Nat.zero_le _, fun _ hp => by cases hp⟩

lemma make_sound {peers : List String} (h : make peers = some t) :
    PeersSound t ∧ Counts t [] ∧ t.saturatedPeers = [] := by
  unfold make at h
  split at h
  · cases h
  next hvalid =>
  obtain rfl := Option.some.inj h
  rw [not_or, not_lt, List.any_eq_true] at hvalid
  refine ⟨⟨?_, ?_, fun p hp => ?_⟩, ⟨fun p => ?_, rfl, fun p => ?_, ?_⟩, rfl⟩
  · exact List.nodup_reverse.mpr (List.nodup_dedup _)
  · refine le_trans ?_ hvalid.1
    rw [List.length_reverse, ← @List.length_reverse _ peers]
    exact (List.dedup_sublist _).length_le
  · by_contra hbad
    refine hvalid.2 ⟨p, by simpa using hp, ?_⟩
    simpa using hbad
  · rfl
  · show (0 : ℤ) ≤ 4
    omega
  · show (0 : ℤ) ≤ 128
    omega

end TallyTransport

end Transport

/-! ### The endpoint hears the mesh -/

section Serve

variable {parse : String → Option Value} {E E' : TallyEndpoint} {closed ended : Bool} {r : Inbound}
  {chunks : List (List UInt8)} {n k : String} {status : Option ℕ}

lemma readBody_some {maxBytes : ℕ} {buf body : List UInt8} (h : readBody maxBytes buf chunks = some body) :
    body = buf ++ chunks.flatten := by
  induction chunks generalizing buf with
  | nil =>
    obtain rfl := Option.some.inj h
    simp
  | cons c cs ih =>
    unfold readBody at h
    split at h
    · cases h
    · rw [ih h, List.flatten_cons, List.append_assoc]

/-- What is delivered came to an open endpoint in a request that bears the token, and is what its body says. -/
lemma serve_delivers (h : serve parse E closed r = (status, some (n, k))) :
    closed = false ∧ r.authorization = some ("Bearer " ++ E.authToken) ∧ r.ended = true ∧ ∃ msg,
      parse (Utf8.decode r.chunks.flatten) = some msg ∧ tallyField "nullifier" msg = some n ∧
        tallyField "epoch" msg = some k := by
  unfold serve at h
  split at h
  · cases (Prod.mk.inj h).2
  next hopen =>
  split at h
  · cases (Prod.mk.inj h).2
  split at h
  · cases (Prod.mk.inj h).2
  next hbearer =>
  split at h
  · cases (Prod.mk.inj h).2
  split at h
  · cases (Prod.mk.inj h).2
  next buf hbuf =>
  split at h
  · cases (Prod.mk.inj h).2
  next hended =>
  split at h
  · cases (Prod.mk.inj h).2
  next msg hmsg =>
  split at h
  · next n' k' hn hk =>
    obtain ⟨rfl, rfl⟩ := Prod.mk.inj (Option.some.inj (Prod.mk.inj h).2)
    have hauth : r.authorization = some ("Bearer " ++ E.authToken) := by
      simp only [bearerMatches, E.token_valid, Bool.true_and, Bool.not_eq_true', Bool.not_eq_false,
        beq_iff_eq] at hbearer
      exact hbearer
    have hflat := readBody_some hbuf
    rw [List.nil_append] at hflat
    subst hflat
    exact ⟨by simpa using hopen, hauth, by simpa using hended, msg, hmsg, hn, hk⟩
  · cases (Prod.mk.inj h).2

/-- Reading the text of an announcement gives it back, as `JSON.parse` does. -/
def ReadsAnnouncements (parse : String → Option Value) : Prop :=
  ∀ n k, canonicalTallyField n = some n → canonicalTallyField k = some k →
    parse (String.ofList (announcement n k).stringify) = some (announcement n k)

lemma tallyField_announcement : tallyField "nullifier" (announcement n k) = canonicalTallyField n ∧
    tallyField "epoch" (announcement n k) = canonicalTallyField k := ⟨rfl, rfl⟩

/-- Of a push nothing else is delivered than what was announced. -/
lemma push_delivers (hparse : ReadsAnnouncements parse) {n' k' : String} (hn : canonicalTallyField n = some n)
    (hk : canonicalTallyField k = some k) (hcarries : Carries (payload n k) chunks ended)
    (h : serve parse E' closed (pushRequest E n k chunks ended) = (status, some (n', k'))) : n' = n ∧ k' = k := by
  obtain ⟨-, -, hended, msg, hmsg, hn', hk'⟩ := serve_delivers h
  obtain rfl : ended = true := hended
  have hbody : Utf8.decode chunks.flatten = String.ofList (announcement n k).stringify := by
    rw [hcarries.2 rfl]
    exact Utf8.decode_encode _
  have hread := hparse n k hn hk
  rw [← hbody] at hread
  obtain rfl := Option.some.inj (hmsg.symm.trans hread)
  rw [tallyField_announcement.1, hn] at hn'
  rw [tallyField_announcement.2, hk] at hk'
  exact ⟨(Option.some.inj hn').symm, (Option.some.inj hk').symm⟩

lemma readBody_fits {maxBytes : ℕ} {buf : List UInt8} {chunks : List (List UInt8)}
    (h : (buf ++ chunks.flatten).length ≤ maxBytes) : readBody maxBytes buf chunks = some (buf ++ chunks.flatten) := by
  induction chunks generalizing buf with
  | nil => simp [readBody]
  | cons c cs ih =>
    rw [List.flatten_cons, ← List.append_assoc] at h ⊢
    unfold readBody
    rw [if_neg, ih h]
    rw [List.length_append] at h
    omega

/-- A path has no query. -/
lemma TallyEndpoint.path_plain (E : TallyEndpoint) : E.path.toList.takeWhile (· != '?') = E.path.toList := by
  refine List.takeWhile_eq_self_iff.mpr fun c hc => ?_
  have hpath := E.path_valid
  cases hcs : E.path.toList with
  | nil =>
    rw [hcs] at hc
    cases hc
  | cons d cs =>
    rw [hcs] at hpath hc
    simp only [validPath, Bool.and_eq_true, beq_iff_eq, decide_eq_true_eq] at hpath
    by_contra heq
    obtain rfl : c = '?' := by simpa using heq
    rcases List.mem_cons.mp hc with h | h
    · rw [hpath.1.1] at h
      cases h
    · have hbad := List.all_eq_true.mp hpath.2 _ h
      revert hbad
      decide

/-- A push that arrives whole at an open gateway of the same mesh, and fits, is heard. -/
lemma serve_push {parse : String → Option Value} {E E' : TallyEndpoint} {n k : String} {chunks : List (List UInt8)}
    (hparse : ReadsAnnouncements parse) (hpath : E.path = E'.path) (htoken : E.authToken = E'.authToken)
    (hn : canonicalTallyField n = some n) (hk : canonicalTallyField k = some k)
    (hwhole : chunks.flatten = payload n k) (hfits : (payload n k).length ≤ E'.maxBytes) :
    serve parse E' false (pushRequest E n k chunks true) = (some 200, some (n, k)) := by
  have hbody : readBody E'.maxBytes [] chunks = some (payload n k) := by
    have hall : ([] ++ chunks.flatten : List UInt8) = payload n k := by rw [List.nil_append, hwhole]
    rw [← hall] at hfits ⊢
    exact readBody_fits hfits
  have hread : parse (Utf8.decode (payload n k)) = some (announcement n k) := by
    unfold payload
    rw [Utf8.decode_encode]
    exact hparse n k hn hk
  have hurl : ¬ (("POST" : String) ≠ "POST" ∨ E.path.toList.takeWhile (· != '?') ≠ E'.path.toList) := by
    rw [E.path_plain, hpath]
    simp
  have hbearer : bearerMatches (some ("Bearer " ++ E.authToken)) E'.authToken = true := by
    simp [bearerMatches, E'.token_valid, htoken]
  have hlength : ((some (payload n k).length).any fun n => decide (E'.maxBytes < n)) = false := by
    rw [Option.any_some]
    exact decide_eq_false (not_lt.mpr hfits)
  unfold serve pushRequest
  generalize payload n k = body at hbody hread hlength ⊢
  simp only [Bool.false_eq_true, if_false, hurl, hbearer, Bool.not_true, hlength, hbody, hread,
    tallyField_announcement.1, tallyField_announcement.2, hn, hk]

end Serve

end ShadeTree.Gateway
