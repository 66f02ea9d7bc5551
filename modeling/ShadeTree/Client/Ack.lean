import ShadeTree.Gateway.EnvelopeFrame

/-!
# The acknowledgement of the gateway (`readGatewayAck` in `client/shade-tree-client.mjs`)

The client keeps the chunks without a newline as they come and counts their bytes; the chunk with the newline is cut
there.  What it comes to is, as for the gateway's reader of envelopes, what the stream tells of its first line.
-/

namespace ShadeTree.Client

open ShadeTree.Lib
open ShadeTree.Gateway (SocketEvent LineRead)

def MAX_GATEWAY_ACK_BYTES : ℕ := 64 * 1024

/-- `readGatewayAck(socket, { maxBytes })` with the chunks it holds and their size; with the result the events it does
not listen to any more.  A socket that is closed or has ended when the listeners are attached is one whose first event
is that. -/
def readGatewayAck (cap : ℕ) (chunks : List (List UInt8)) (size : ℕ) : List SocketEvent → LineRead × List SocketEvent
  | [] => (.waiting, [])
  | .data data :: events =>
    let nl := data.idxOf? 10
    let lineBytes := nl.getD data.length
    if cap < size + lineBytes then (.rejected "SHADE_TREE_GATEWAY_ACK_TOO_LARGE", events)
    else
      match nl with
      | none => readGatewayAck cap (chunks ++ [data]) (size + data.length) events
      | some nl =>
        let pfx := if nl = 0 then [] else data.take nl
        let line := if chunks.length = 0 then Utf8.decode pfx else Utf8.decode (chunks ++ [pfx]).flatten
        (.resolved line (data.drop (nl + 1)), events)
  | .error _ :: events => (.rejected "SHADE_TREE_GATEWAY_ACK_TRANSPORT", events)
  | .ended :: events => (.rejected "SHADE_TREE_GATEWAY_ACK_EOF", events)
  | .closed :: events => (.rejected "SHADE_TREE_GATEWAY_ACK_CLOSED", events)
  | .timeout :: events => (.rejected "SHADE_TREE_GATEWAY_ACK_TIMEOUT", events)

/-- One chunk: the reader looks at the line as far as it has come. -/
lemma readGatewayAck_data {cap : ℕ} {chunks : List (List UInt8)} (hno : 10 ∉ chunks.flatten) (data : List UInt8)
    (events : List SocketEvent) :
    readGatewayAck cap chunks chunks.flatten.length (.data data :: events) =
      match Frame.of 10 cap (chunks.flatten ++ data) with
      | .more => readGatewayAck cap (chunks ++ [data]) (chunks ++ [data]).flatten.length events
      | .tooLong => (.rejected "SHADE_TREE_GATEWAY_ACK_TOO_LARGE", events)
      | .line l r => (.resolved (Utf8.decode l) r, events) := by
  have hflat : (chunks ++ [data]).flatten = chunks.flatten ++ data := by
    rw [List.flatten_append, List.flatten_singleton]
  rw [readGatewayAck, hflat]
  by_cases hmem : 10 ∈ data
  · obtain ⟨l, r, rfl, hl⟩ := List.eq_append_cons_of_mem hmem
    have hline : 10 ∉ chunks.flatten ++ l := by
      rw [List.mem_append, not_or]
      exact ⟨hno, hl⟩
    rw [← List.append_assoc, Frame.of_append_cons hline, Frame.idxOf?_append_cons hl, Option.getD_some,
      ← List.length_append]
    by_cases hlen : cap < (chunks.flatten ++ l).length
    · rw [if_pos hlen, if_pos hlen]
    · have hpfx : (if l.length = 0 then [] else (l ++ 10 :: r).take l.length) = l := by
        split
        · next hzero => exact (List.length_eq_zero_iff.mp hzero).symm
        · exact List.take_left ..
      have htext : (if chunks.length = 0 then Utf8.decode l else Utf8.decode (chunks ++ [l]).flatten) =
          Utf8.decode (chunks.flatten ++ l) := by
        split
        · next hzero =>
          rw [List.length_eq_zero_iff.mp hzero]
          rfl
        · rw [List.flatten_append, List.flatten_singleton]
      have hdrop : (l ++ 10 :: r).drop (l.length + 1) = r := by
        rw [← List.drop_drop, List.drop_left]
        rfl
      rw [if_neg hlen, if_neg hlen]
      simp only [hpfx, htext, hdrop]
  · have hboth : 10 ∉ chunks.flatten ++ data := by
      rw [List.mem_append, not_or]
      exact ⟨hno, hmem⟩
    rw [List.idxOf?_eq_none_iff.mpr hmem, Option.getD_none, ← List.length_append]
    by_cases hlen : cap < (chunks.flatten ++ data).length
    · have hof := Frame.of_tooLong hboth hlen []
      rw [List.append_nil] at hof
      rw [if_pos hlen, hof]
    · rw [if_neg hlen, Frame.of_more.mpr ⟨hboth, by omega⟩]

theorem readGatewayAck_eq {cap : ℕ} {held : List (List UInt8)} (h : Frame.of 10 cap held.flatten = .more)
    (chunks : List (List UInt8)) (tail : List SocketEvent) :
    LineRead.seen (readGatewayAck cap held held.flatten.length (chunks.map .data ++ tail)) =
      LineRead.ofFrame "SHADE_TREE_GATEWAY_ACK_TOO_LARGE"
        (LineRead.seen (readGatewayAck cap (held ++ chunks) (held ++ chunks).flatten.length tail))
        (tail.flatMap SocketEvent.bytes) (Frame.of 10 cap (held ++ chunks).flatten) := by
  have hscan : Frame.of 10 cap (held ++ chunks).flatten = Frame.scan 10 cap held.flatten chunks := by
    rw [List.flatten_append, Frame.scan_eq h]
  rw [hscan]
  clear hscan
  induction chunks generalizing held with
  | nil => simp [Frame.scan, LineRead.ofFrame]
  | cons chunk chunks ih =>
    rw [List.map_cons, List.cons_append, readGatewayAck_data (Frame.of_more.mp h).1, Frame.scan]
    cases hof : Frame.of 10 cap (held.flatten ++ chunk) with
    | more =>
      have hnext : Frame.of 10 cap (held ++ [chunk]).flatten = .more := by
        rwa [List.flatten_append, List.flatten_singleton]
      have hflat : (held ++ [chunk]).flatten = held.flatten ++ chunk := by
        rw [List.flatten_append, List.flatten_singleton]
      have hrun := ih hnext
      rw [List.append_assoc, List.singleton_append] at hrun
      rw [hrun, hflat]
    | tooLong => rfl
    | line l r =>
      simp only [LineRead.seen, LineRead.ofFrame, Frame.later, List.flatMap_append, Gateway.flatMap_bytes_data,
        List.append_assoc]

/-- How the bytes that a reader holds came in chunks makes no difference. -/
lemma readGatewayAck_held {cap : ℕ} {held held' : List (List UInt8)} (h : held.flatten = held'.flatten)
    (hno : 10 ∉ held.flatten) (events : List SocketEvent) :
    readGatewayAck cap held held.flatten.length events = readGatewayAck cap held' held'.flatten.length events := by
  induction events generalizing held held' with
  | nil => rfl
  | cons event events ih =>
    cases event with
    | data data =>
      rw [readGatewayAck_data hno, readGatewayAck_data (h ▸ hno), ← h]
      cases hof : Frame.of 10 cap (held.flatten ++ data) with
      | more =>
        refine ih ?_ ?_
        · rw [List.flatten_append, List.flatten_append, h]
        · rw [List.flatten_append, List.flatten_singleton]
          exact (Frame.of_more.mp hof).1
      | tooLong => rfl
      | line l r => rfl
    | error message => rfl
    | ended => rfl
    | closed => rfl
    | timeout => rfl

/-- **The chunks make no difference to either reader.** The gateway's reader of an envelope and the client's reader of
an acknowledgement come, for every way a stream is cut and whatever follows it, to the same decision, the same line
and the same bytes behind it. -/
theorem chunks_invariant {chunks chunks' : List (List UInt8)} (h : chunks.flatten = chunks'.flatten)
    (tail : List SocketEvent) :
    LineRead.seen (Gateway.readEnvelope [] (chunks.map .data ++ tail)) =
      LineRead.seen (Gateway.readEnvelope [] (chunks'.map .data ++ tail)) ∧
    ∀ cap, LineRead.seen (readGatewayAck cap [] 0 (chunks.map .data ++ tail)) =
      LineRead.seen (readGatewayAck cap [] 0 (chunks'.map .data ++ tail)) := by
  have hempty : ∀ cap, Frame.of (10 : UInt8) cap [] = .more := fun cap =>
    Frame.of_more.mpr ⟨List.not_mem_nil, Nat.zero_le cap⟩
  constructor
  · rw [Gateway.readEnvelope_eq (hempty _), Gateway.readEnvelope_eq (hempty _), h]
  · intro cap
    have hrun := @readGatewayAck_eq _ [] (hempty cap) chunks tail
    have hrun' := @readGatewayAck_eq _ [] (hempty cap) chunks' tail
    simp only [List.flatten_nil, List.length_nil, List.nil_append] at hrun hrun'
    rw [hrun, hrun', ← h]
    by_cases hof : Frame.of 10 cap chunks.flatten = .more
    · have hheld := @readGatewayAck_held cap _ _ h (Frame.of_more.mp hof).1 tail
      rw [← h] at hheld
      rw [hheld]
    · cases hf : Frame.of 10 cap chunks.flatten with
      | more => exact absurd hf hof
      | tooLong => rfl
      | line l r => rfl

/-- The euro sign in two chunks, and the newline in a third with a byte behind it. -/
theorem chunks_invariant_split :
    LineRead.seen (Gateway.readEnvelope [] ([[0xe2, 0x82], [0xac], [10, 0x16]].map .data ++ [.data [3], .ended])) =
        .resolved "€" [0x16, 3] ∧
      LineRead.seen (readGatewayAck MAX_GATEWAY_ACK_BYTES [] 0
        ([[0xe2, 0x82], [0xac], [10, 0x16]].map .data ++ [.data [3], .ended])) = .resolved "€" [0x16, 3] := by
  obtain ⟨henvelope, hack⟩ := @chunks_invariant [[0xe2, 0x82], [0xac], [10, 0x16]] [[0xe2, 0x82, 0xac, 10, 0x16]] rfl
    [.data [3], .ended]
  rw [henvelope, hack]
  decide +kernel

end ShadeTree.Client
