import ShadeTree.Client.Ack
import ShadeTree.Lib.Json

/-!
# The acknowledgement as the native client reads it (`exchange_ack` in `rust/shade-tree-egress/src/lib.rs`)

The native client reads up to 512 bytes at a time and looks at the size only after a read without a newline.  A line
that is too long is therefore taken if the read that ends it begins within the limit; apart from that, and from what
the two readers of JSON make of the line, it agrees with the client in JavaScript.
-/

namespace ShadeTree.Native

open ShadeTree.Lib
open ShadeTree.Client (MAX_GATEWAY_ACK_BYTES)
open ShadeTree.Gateway (SocketEvent LineRead)

section
variable {N N' : Type}

/-- What becomes of the bytes a gateway sends: nothing yet, a failure, or the acknowledgement line with all bytes
behind it. -/
inductive AckOutcome where
  | waiting
  | failed
  | accepted (line : String) (early : List UInt8)
  deriving DecidableEq, Repr

/-- `ack.get("ok").and_then(Value::as_bool)`, and in JavaScript `ack.ok` of an object if it is a boolean. -/
def okOf {N : Type} (ack : Json N) : Option Bool :=
  match ack.get "ok" with
  | some (.bool ok) => some ok
  | _ => none

/-- The reading of `exchange_ack` with what it has of the line; `none` stands for a read that waits, and at the end
of the stream a read returns no bytes.  With the line come the early bytes and the reads that are left. -/
def read_ack (line : List UInt8) :
    List (List UInt8) → Option (Except String (List UInt8 × List UInt8 × List (List UInt8)))
  | [] => none
  | chunk :: reads =>
    if chunk.length = 0 then some (.error "gateway closed the connection before an ack")
    else
      match chunk.idxOf? 10 with
      | some newline => some (.ok (line ++ chunk.take newline, chunk.drop (newline + 1), reads))
      | none =>
        let line := line ++ chunk
        if 64 * 1024 < line.length then some (.error "ack exceeded 64KiB without a newline")
        else read_ack line reads

/-- `exchange_ack` once the envelope is written: `from_str` is the reader of serde_json.  The reads that are left come
later. -/
def exchange_ack (from_str : String → Option (Json N)) (reads : List (List UInt8)) : AckOutcome :=
  match read_ack [] reads with
  | none => .waiting
  | some (.error _) => .failed
  | some (.ok (line, early, reads)) =>
    let text := Utf8.decode line
    match from_str text with
    | none => .failed
    | some ack => if okOf ack = none then .failed else .accepted text (early ++ reads.flatten)

/-- The reads of a stream that has ended or not: at its end a read returns no bytes. -/
def readsOf (reads : List (List UInt8)) (ended : Bool) : List (List UInt8) :=
  reads ++ if ended then [[]] else []

/-- The client in JavaScript: the line of `readGatewayAck`, then `JSON.parse` and the check of its shape. -/
def gatewayAck (parse : String → Option (Json N')) (chunks : List (List UInt8)) (ended : Bool) : AckOutcome :=
  match LineRead.seen (Client.readGatewayAck MAX_GATEWAY_ACK_BYTES [] 0
      (chunks.map .data ++ if ended then [.ended] else [])) with
  | .waiting => .waiting
  | .rejected _ => .failed
  | .resolved line rest =>
    match parse line with
    | none => .failed
    | some ack => if okOf ack = none then .failed else .accepted line rest

/-- An object with a boolean `ok`, as a reader of JSON sees it. -/
def acceptsAck {N : Type} (read : String → Option (Json N)) (text : String) : Bool :=
  (read text).any fun ack => (okOf ack).isSome

/-! ### What each client comes to -/

variable {from_str : String → Option (Json N)} {parse : String → Option (Json N')}

lemma read_ack_line {line l r : List UInt8} {before later : List (List UInt8)} (hne : [] ∉ before)
    (hline : line.length ≤ 64 * 1024) (hbefore : 10 ∉ before.flatten) (hl : 10 ∉ l) :
    read_ack line (before ++ (l ++ 10 :: r) :: later) =
      if 64 * 1024 < (line ++ before.flatten).length then some (.error "ack exceeded 64KiB without a newline")
      else some (.ok (line ++ before.flatten ++ l, r, later)) := by
  induction before generalizing line with
  | nil =>
    have hdrop : (l ++ 10 :: r).drop (l.length + 1) = r := by
      rw [← List.drop_drop, List.drop_left]
      rfl
    have hlen : (l ++ 10 :: r).length ≠ 0 := by simp
    rw [List.nil_append, read_ack, if_neg hlen, Frame.idxOf?_append_cons hl, List.flatten_nil, List.append_nil]
    simp only [List.take_left, hdrop]
    exact (if_neg (by omega)).symm
  | cons chunk before ih =>
    rw [List.flatten_cons, List.mem_append, not_or] at hbefore
    rw [List.mem_cons, not_or] at hne
    have hchunk : chunk.length ≠ 0 := fun h => hne.1 (List.length_eq_zero_iff.mp h).symm
    rw [List.cons_append, read_ack, if_neg hchunk, List.idxOf?_eq_none_iff.mpr hbefore.1, List.flatten_cons,
      ← List.append_assoc]
    by_cases hlen : 64 * 1024 < (line ++ chunk).length
    · have hlonger : 64 * 1024 < (line ++ chunk ++ before.flatten).length := by
        rw [List.length_append]
        omega
      rw [if_pos hlonger]
      exact if_pos hlen
    · rw [← ih hne.2 (by omega) hbefore.2]
      exact if_neg hlen

lemma read_ack_no_line {line : List UInt8} {reads : List (List UInt8)} (hne : [] ∉ reads)
    (hline : line.length ≤ 64 * 1024) (hno : 10 ∉ reads.flatten) (ended : Bool) :
    read_ack line (readsOf reads ended) =
      if 64 * 1024 < (line ++ reads.flatten).length then some (.error "ack exceeded 64KiB without a newline")
      else if ended then some (.error "gateway closed the connection before an ack") else none := by
  induction reads generalizing line with
  | nil =>
    rw [List.flatten_nil, List.append_nil, if_neg (by omega)]
    cases ended <;> rfl
  | cons chunk reads ih =>
    rw [List.flatten_cons, List.mem_append, not_or] at hno
    rw [List.mem_cons, not_or] at hne
    have hchunk : chunk.length ≠ 0 := fun h => hne.1 (List.length_eq_zero_iff.mp h).symm
    rw [readsOf, List.cons_append, read_ack, if_neg hchunk, List.idxOf?_eq_none_iff.mpr hno.1, List.flatten_cons,
      ← List.append_assoc]
    by_cases hlen : 64 * 1024 < (line ++ chunk).length
    · have hlonger : 64 * 1024 < (line ++ chunk ++ reads.flatten).length := by
        rw [List.length_append]
        omega
      rw [if_pos hlonger]
      exact if_pos hlen
    · rw [← ih hne.2 (by omega) hno.2]
      exact if_neg hlen

/-- The acknowledgement line with the bytes behind it, if a reader of JSON sees an object with a boolean `ok`. -/
lemma acceptsAck_eq {M : Type} (read : String → Option (Json M)) (line : String) (early : List UInt8) :
    (match read line with
      | none => AckOutcome.failed
      | some ack => if okOf ack = none then .failed else .accepted line early) =
      if acceptsAck read line then .accepted line early else .failed := by
  unfold acceptsAck
  cases read line with
  | none => rfl
  | some ack => cases h : okOf ack <;> simp [h]

lemma exchange_ack_line {l r : List UInt8} {before later : List (List UInt8)} (hne : [] ∉ before)
    (hbefore : 10 ∉ before.flatten) (hl : 10 ∉ l) :
    exchange_ack from_str (before ++ (l ++ 10 :: r) :: later) =
      if before.flatten.length ≤ 64 * 1024 ∧ acceptsAck from_str (Utf8.decode (before.flatten ++ l)) then
        .accepted (Utf8.decode (before.flatten ++ l)) (r ++ later.flatten)
      else .failed := by
  unfold exchange_ack
  rw [read_ack_line hne (Nat.zero_le _) hbefore hl, List.nil_append]
  by_cases hlen : 64 * 1024 < before.flatten.length
  · rw [if_pos hlen, if_neg fun h => absurd h.1 (by omega)]
  · rw [if_neg hlen]
    refine (acceptsAck_eq from_str _ _).trans ?_
    by_cases haccepts : acceptsAck from_str (Utf8.decode (before.flatten ++ l)) = true
    · rw [if_pos haccepts, if_pos ⟨by omega, haccepts⟩]
    · rw [if_neg haccepts, if_neg fun h => haccepts h.2]

lemma exchange_ack_no_line {reads : List (List UInt8)} (hne : [] ∉ reads) (hno : 10 ∉ reads.flatten)
    (ended : Bool) :
    exchange_ack from_str (readsOf reads ended) =
      if 64 * 1024 < reads.flatten.length ∨ ended = true then .failed else .waiting := by
  unfold exchange_ack
  rw [read_ack_no_line hne (Nat.zero_le _) hno, List.nil_append]
  by_cases hlen : 64 * 1024 < reads.flatten.length
  · rw [if_pos hlen, if_pos (.inl hlen)]
  · rw [if_neg hlen]
    cases ended with
    | false => rw [if_neg (by decide), if_neg (not_or.mpr ⟨hlen, Bool.false_ne_true⟩)]
    | true => rw [if_pos rfl, if_pos (.inr rfl)]

/-- What the client in JavaScript comes to is what the stream tells of its first line. -/
lemma gatewayAck_eq (chunks : List (List UInt8)) (ended : Bool) :
    gatewayAck parse chunks ended =
      match Frame.of 10 MAX_GATEWAY_ACK_BYTES chunks.flatten with
      | .more => if ended then .failed else .waiting
      | .tooLong => .failed
      | .line l r => if acceptsAck parse (Utf8.decode l) then .accepted (Utf8.decode l) r else .failed := by
  have hempty : Frame.of (10 : UInt8) MAX_GATEWAY_ACK_BYTES [] = .more :=
    Frame.of_more.mpr ⟨List.not_mem_nil, Nat.zero_le _⟩
  have hrun := @Client.readGatewayAck_eq _ [] hempty chunks (if ended then [.ended] else [])
  simp only [List.flatten_nil, List.length_nil, List.nil_append] at hrun
  have hbytes : (if ended then [SocketEvent.ended] else []).flatMap SocketEvent.bytes = [] := by
    cases ended <;> rfl
  unfold gatewayAck
  rw [hrun, hbytes]
  cases Frame.of 10 MAX_GATEWAY_ACK_BYTES chunks.flatten with
  | more => cases ended <;> rfl
  | tooLong => rfl
  | line l r =>
    simp only [LineRead.ofFrame, List.append_nil]
    exact acceptsAck_eq parse _ _

variable (from_str parse)

/-- The reads at which the two clients agree: a line beyond the limit is ended by a read that begins beyond it too,
or is no acknowledgement to serde_json, and within the limit serde_json and `JSON.parse` both see an acknowledgement
or neither does. -/
def Agreeing (reads : List (List UInt8)) : Prop :=
  ∀ before l r later, reads = before ++ (l ++ 10 :: r) :: later → 10 ∉ before.flatten → 10 ∉ l →
    (64 * 1024 < (before.flatten ++ l).length → before.flatten.length ≤ 64 * 1024 →
      acceptsAck from_str (Utf8.decode (before.flatten ++ l)) = false) ∧
    ((before.flatten ++ l).length ≤ 64 * 1024 →
      acceptsAck from_str (Utf8.decode (before.flatten ++ l)) = acceptsAck parse (Utf8.decode (before.flatten ++ l)))

/-- A line that is taken beyond the limit ends within one read of it. -/
lemma overlong_bound {before : List (List UInt8)} {l r : List UInt8} (hread : (l ++ 10 :: r).length ≤ 512)
    (hbefore : before.flatten.length ≤ 64 * 1024) : (before.flatten ++ l).length < 64 * 1024 + 512 := by
  rw [List.length_append, List.length_cons] at hread
  rw [List.length_append]
  omega

lemma exists_line_read {reads : List (List UInt8)} (h : 10 ∈ reads.flatten) :
    ∃ before l r later, reads = before ++ (l ++ 10 :: r) :: later ∧ 10 ∉ before.flatten ∧ 10 ∉ l := by
  induction reads with
  | nil => cases h
  | cons chunk reads ih =>
    by_cases hmem : 10 ∈ chunk
    · obtain ⟨l, r, rfl, hl⟩ := List.eq_append_cons_of_mem hmem
      exact ⟨[], l, r, reads, rfl, List.not_mem_nil, hl⟩
    · rw [List.flatten_cons, List.mem_append] at h
      obtain ⟨before, l, r, later, rfl, hbefore, hl⟩ := ih (h.resolve_left hmem)
      refine ⟨chunk :: before, l, r, later, rfl, ?_, hl⟩
      rw [List.flatten_cons, List.mem_append, not_or]
      exact ⟨hmem, hbefore⟩

variable {from_str parse}

lemma flatten_line (before later : List (List UInt8)) (l r : List UInt8) :
    (before ++ (l ++ 10 :: r) :: later).flatten = (before.flatten ++ l) ++ 10 :: (r ++ later.flatten) := by
  simp [List.append_assoc]

/-- At one line the two clients agree exactly if it is one of those. -/
lemma agree_line {ended : Bool} {l r : List UInt8} {before later chunks : List (List UInt8)}
    (hchunks : chunks.flatten = (before ++ (l ++ 10 :: r) :: later).flatten) (hne : [] ∉ before)
    (hbefore : 10 ∉ before.flatten) (hl : 10 ∉ l) :
    gatewayAck parse chunks ended =
        exchange_ack from_str (readsOf (before ++ (l ++ 10 :: r) :: later) ended) ↔
      (64 * 1024 < (before.flatten ++ l).length → before.flatten.length ≤ 64 * 1024 →
        acceptsAck from_str (Utf8.decode (before.flatten ++ l)) = false) ∧
      ((before.flatten ++ l).length ≤ 64 * 1024 →
        acceptsAck from_str (Utf8.decode (before.flatten ++ l)) =
          acceptsAck parse (Utf8.decode (before.flatten ++ l))) := by
  have hline : 10 ∉ before.flatten ++ l := by
    rw [List.mem_append, not_or]
    exact ⟨hbefore, hl⟩
  have hle : before.flatten.length ≤ (before.flatten ++ l).length := by
    rw [List.length_append]
    omega
  have hreads : exchange_ack from_str (readsOf (before ++ (l ++ 10 :: r) :: later) ended) =
      if before.flatten.length ≤ 64 * 1024 ∧ acceptsAck from_str (Utf8.decode (before.flatten ++ l)) then
        .accepted (Utf8.decode (before.flatten ++ l)) (r ++ later.flatten)
      else .failed := by
    rw [readsOf, List.append_assoc, List.cons_append, exchange_ack_line hne hbefore hl, List.flatten_append]
    cases ended <;> simp
  rw [gatewayAck_eq, hchunks, flatten_line, Frame.of_append_cons hline, hreads]
  unfold MAX_GATEWAY_ACK_BYTES
  generalize before.flatten ++ l = line at hle
  generalize r ++ later.flatten = early
  by_cases hlen : 64 * 1024 < line.length
  · rw [if_pos hlen]
    by_cases htaken : before.flatten.length ≤ 64 * 1024 ∧ acceptsAck from_str (Utf8.decode line) = true
    · rw [if_pos htaken]
      refine iff_of_false (by simp) fun h => ?_
      rw [h.1 hlen htaken.1] at htaken
      cases htaken.2
    · rw [if_neg htaken]
      exact iff_of_true rfl ⟨fun _ hstart => Bool.eq_false_iff.mpr fun haccepts => htaken ⟨hstart, haccepts⟩,
        fun h => absurd h (by omega)⟩
  · rw [if_neg hlen]
    have hstart : before.flatten.length ≤ 64 * 1024 := by omega
    simp only [hstart, true_and]
    cases hjs : acceptsAck parse (Utf8.decode line) <;> cases hrust : acceptsAck from_str (Utf8.decode line) <;>
      simp [hlen, show line.length ≤ 65536 by omega]

/-- **Agreement of the two clients.** For every way a stream is read, the native client comes to what the client in
JavaScript comes to, however the stream reaches that one, exactly if the reads are agreeing; and then how the stream
is read makes no difference to the native client either. -/
theorem exchange_ack_agrees (from_str : String → Option (Json N)) (parse : String → Option (Json N'))
    {reads : List (List UInt8)} (hreads : [] ∉ reads) (ended : Bool) :
    ((∀ chunks, chunks.flatten = reads.flatten →
        gatewayAck parse chunks ended = exchange_ack from_str (readsOf reads ended)) ↔
      Agreeing from_str parse reads) ∧
    ∀ reads', [] ∉ reads' → reads'.flatten = reads.flatten →
      Agreeing from_str parse reads → Agreeing from_str parse reads' →
      exchange_ack from_str (readsOf reads' ended) = exchange_ack from_str (readsOf reads ended) := by
  have key : ∀ reads : List (List UInt8), [] ∉ reads → ((∀ chunks, chunks.flatten = reads.flatten →
      gatewayAck parse chunks ended = exchange_ack from_str (readsOf reads ended)) ↔
        Agreeing from_str parse reads) := by
    intro reads hne
    constructor
    · rintro h before l r later rfl hbefore hl
      exact (agree_line rfl (fun hmem => hne (List.mem_append_left _ hmem)) hbefore hl).mp (h _ rfl)
    · intro h chunks hchunks
      by_cases hmem : 10 ∈ reads.flatten
      · obtain ⟨before, l, r, later, rfl, hbefore, hl⟩ := exists_line_read hmem
        exact (agree_line hchunks (fun hmem => hne (List.mem_append_left _ hmem)) hbefore hl).mpr
          (h before l r later rfl hbefore hl)
      · rw [exchange_ack_no_line hne hmem, gatewayAck_eq, hchunks]
        by_cases hlen : 64 * 1024 < reads.flatten.length
        · have hof : Frame.of 10 MAX_GATEWAY_ACK_BYTES (reads.flatten ++ []) = .tooLong := Frame.of_tooLong hmem hlen []
          rw [List.append_nil] at hof
          rw [hof]
          exact (if_pos (.inl hlen)).symm
        · rw [Frame.of_more.mpr ⟨hmem, by unfold MAX_GATEWAY_ACK_BYTES; omega⟩]
          cases ended with
          | false => rw [if_neg (not_or.mpr ⟨hlen, Bool.false_ne_true⟩), if_neg Bool.false_ne_true]
          | true => rw [if_pos rfl, if_pos (.inr rfl)]
  refine ⟨key reads hreads, fun reads' hreads' hflat hagree hagree' => ?_⟩
  rw [← (key reads hreads).mpr hagree reads rfl, (key reads' hreads').mpr hagree' reads hflat.symm]

end

/-- `{"ok":true}` as bytes. -/
def okAck : List UInt8 := [0x7b, 0x22, 0x6f, 0x6b, 0x22, 0x3a, 0x74, 0x72, 0x75, 0x65, 0x7d]

/-- Both readers of JSON see `ok` in the text of an acknowledgement. -/
def okReader (_ : String) : Option (Json ℕ) := some (.obj [("ok", .bool true)])

theorem exchange_ack_agrees_ok :
    (∀ chunks, chunks.flatten = [okAck ++ [10]].flatten →
      gatewayAck okReader chunks false = exchange_ack okReader (readsOf [okAck ++ [10]] false)) ∧
    exchange_ack okReader (readsOf [okAck, [10]] false) = exchange_ack okReader (readsOf [okAck ++ [10]] false) := by
  have hagree : ∀ reads : List (List UInt8), reads.flatten = okAck ++ [10] → Agreeing okReader okReader reads := by
    rintro reads hreads before l r later rfl - hl
    refine ⟨fun hlen => ?_, fun _ => rfl⟩
    have htwelve : (okAck ++ [10]).length = 12 := rfl
    have hlength := congrArg List.length (flatten_line before later l r)
    rw [hreads, htwelve, List.length_append] at hlength
    omega
  have hne : ([] : List UInt8) ∉ [okAck ++ [10]] := by decide
  have h := exchange_ack_agrees okReader okReader hne false
  exact ⟨h.1.mpr (hagree _ rfl), h.2 [okAck, [10]] (by decide) rfl (hagree _ rfl) (hagree _ rfl)⟩

/-- Spaces up to the limit. -/
def spaces : List (List UInt8) := List.replicate 128 (List.replicate 512 0x20)

lemma spaces_flatten : spaces.flatten = List.replicate 65536 0x20 := by
  rw [spaces, List.flatten_replicate_replicate]

/-- Behind spaces up to the limit the native client takes an acknowledgement that comes with its newline in one read,
and fails when it comes in two; the client in JavaScript fails. -/
theorem spaces_ack_taken :
    exchange_ack okReader (readsOf (spaces ++ [okAck ++ [10]]) false) =
      .accepted (Utf8.decode (spaces.flatten ++ okAck)) [] ∧
    exchange_ack okReader (readsOf (spaces ++ [okAck.take 1, okAck.drop 1 ++ [10]]) false) = .failed ∧
    gatewayAck okReader (spaces ++ [okAck ++ [10]]) false = .failed := by
  have hne : ([] : List UInt8) ∉ spaces := fun h => by cases (List.eq_of_mem_replicate h)
  have hno : (10 : UInt8) ∉ spaces.flatten := by
    rw [spaces_flatten]
    exact fun h => absurd (List.eq_of_mem_replicate h) (by decide)
  have hlen : spaces.flatten.length = 65536 := by rw [spaces_flatten, List.length_replicate]
  have hok : (10 : UInt8) ∉ okAck := by decide
  refine ⟨?_, ?_, ?_⟩
  · refine (exchange_ack_line hne hno hok : exchange_ack okReader (spaces ++ (okAck ++ 10 :: []) :: []) = _).trans ?_
    exact if_pos ⟨hlen.le, rfl⟩
  · have hne' : ([] : List UInt8) ∉ spaces ++ [okAck.take 1] := by simp [hne, okAck]
    have hno' : (10 : UInt8) ∉ (spaces ++ [okAck.take 1]).flatten := by
      rw [List.flatten_append, List.mem_append, not_or]
      exact ⟨hno, by decide⟩
    have hlen' : (spaces ++ [okAck.take 1]).flatten.length = 65537 := by
      rw [List.flatten_append, List.length_append, hlen]
      rfl
    have hreads : readsOf (spaces ++ [okAck.take 1, okAck.drop 1 ++ [10]]) false =
        (spaces ++ [okAck.take 1]) ++ (okAck.drop 1 ++ 10 :: []) :: [] := by
      rw [List.append_assoc]
      exact List.append_nil _
    rw [hreads, exchange_ack_line hne' hno' (by decide)]
    exact if_neg fun hstart => absurd hstart.1 (by omega)
  · have hflat : (spaces ++ [okAck ++ [10]]).flatten = (spaces.flatten ++ okAck) ++ 10 :: [] := by
      rw [List.flatten_append, List.append_assoc]
      rfl
    have hline : (10 : UInt8) ∉ spaces.flatten ++ okAck := by
      rw [List.mem_append, not_or]
      exact ⟨hno, hok⟩
    have hlong : MAX_GATEWAY_ACK_BYTES < (spaces.flatten ++ okAck).length := by
      rw [List.length_append, hlen]
      decide
    rw [gatewayAck_eq, hflat, Frame.of_append_cons hline, if_pos hlong]

end ShadeTree.Native
