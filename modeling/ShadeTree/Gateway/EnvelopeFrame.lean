import ShadeTree.Gateway.Handler
import ShadeTree.Lib.LineFrame
import ShadeTree.Lib.Utf8

/-!
# The line of the envelope (`readEnvelope` in `gateway/gateway.mjs`)

The gateway gathers what comes in one buffer until there is a newline.  How the bytes are cut into chunks makes no
difference to whether the line is taken, to the line, and to the bytes that are passed on behind it.
-/

namespace ShadeTree.Gateway

open ShadeTree.Lib

/-- What a socket emits; a deadline is among it. -/
inductive SocketEvent where
  | data (chunk : List UInt8)
  | error (message : String)
  | ended
  | closed
  | timeout

def SocketEvent.bytes : SocketEvent → List UInt8
  | .data chunk => chunk
  | _ => []

/-- What a reader of one line comes to: the error it rejects with, or the line and the bytes behind it. -/
inductive LineRead where
  | waiting
  | rejected (reason : String)
  | resolved (line : String) (rest : List UInt8)
  deriving DecidableEq, Repr

/-- `readEnvelope(socket)` with what it has in the buffer; with the result the events it does not listen to any
more. -/
def readEnvelope (buf : List UInt8) : List SocketEvent → LineRead × List SocketEvent
  | [] => (.waiting, [])
  | .data chunk :: events =>
    let buf := buf ++ chunk
    let nl := buf.idxOf? 10
    if nl.any (MAX_ENVELOPE < ·) ∨ (nl = none ∧ MAX_ENVELOPE < buf.length) then
      (.rejected "envelope-too-large", events)
    else
      match nl with
      | none => readEnvelope buf events
      | some nl => (.resolved (Utf8.decode (buf.take nl)) (buf.drop (nl + 1)), events)
  | .error message :: events => (.rejected message, events)
  | .ended :: events => (.rejected "bad-envelope", events)
  | .timeout :: events => (.rejected "envelope-timeout", events)
  | .closed :: events => readEnvelope buf events

/-- What is seen of a reader: with the line all bytes behind it, those that come later among them. -/
def LineRead.seen : LineRead × List SocketEvent → LineRead
  | (.resolved line rest, events) => .resolved line (rest ++ events.flatMap SocketEvent.bytes)
  | (r, _) => r

/-- What is seen of a reader by what it knows of the line: `unread` if it does not know enough, `later` what comes
when it has stopped. -/
def LineRead.ofFrame (tooLong : String) (unread : LineRead) (later : List UInt8) : Frame UInt8 → LineRead
  | .more => unread
  | .tooLong => .rejected tooLong
  | .line l r => .resolved (Utf8.decode l) (r ++ later)

/-- One chunk: the reader looks at the line as far as it has come. -/
lemma readEnvelope_data (buf chunk : List UInt8) (events : List SocketEvent) :
    readEnvelope buf (.data chunk :: events) =
      match Frame.of 10 MAX_ENVELOPE (buf ++ chunk) with
      | .more => readEnvelope (buf ++ chunk) events
      | .tooLong => (.rejected "envelope-too-large", events)
      | .line l r => (.resolved (Utf8.decode l) r, events) := by
  rw [readEnvelope]
  rcases Frame.of_cases 10 MAX_ENVELOPE (buf ++ chunk) with ⟨hnone, -, hof⟩ | ⟨l, r, heq, -, hsome, hof⟩
  · rw [hnone, hof]
    by_cases hlen : MAX_ENVELOPE < (buf ++ chunk).length
    · rw [if_pos (.inr ⟨rfl, hlen⟩), if_pos hlen]
    · rw [if_neg (by rintro (h | ⟨-, h⟩); cases h; exact hlen h), if_neg hlen]
  · rw [hsome, hof]
    by_cases hlen : MAX_ENVELOPE < l.length
    · rw [if_pos (.inl (by simpa using hlen)), if_pos hlen]
    · have htake : (buf ++ chunk).take l.length = l := by rw [heq, List.take_left]
      have hdrop : (buf ++ chunk).drop (l.length + 1) = r := by
        rw [heq, ← List.drop_drop, List.drop_left]
        rfl
      rw [if_neg (by simp [hlen]), if_neg hlen]
      simp only [htake, hdrop]

lemma flatMap_bytes_data (chunks : List (List UInt8)) :
    (chunks.map SocketEvent.data).flatMap SocketEvent.bytes = chunks.flatten := by
  rw [List.flatMap_map]
  exact List.flatMap_id'

/-- A whole run: what is seen is what the stream tells of its first line. -/
theorem readEnvelope_eq {buf : List UInt8} (h : Frame.of 10 MAX_ENVELOPE buf = .more) (chunks : List (List UInt8))
    (tail : List SocketEvent) :
    LineRead.seen (readEnvelope buf (chunks.map .data ++ tail)) =
      LineRead.ofFrame "envelope-too-large" (LineRead.seen (readEnvelope (buf ++ chunks.flatten) tail))
        (tail.flatMap SocketEvent.bytes) (Frame.of 10 MAX_ENVELOPE (buf ++ chunks.flatten)) := by
  rw [← Frame.scan_eq h]
  clear h
  induction chunks generalizing buf with
  | nil => simp [Frame.scan, LineRead.ofFrame]
  | cons chunk chunks ih =>
    rw [List.map_cons, List.cons_append, readEnvelope_data, Frame.scan, List.flatten_cons, ← List.append_assoc]
    cases Frame.of 10 MAX_ENVELOPE (buf ++ chunk) with
    | more => exact ih
    | tooLong => rfl
    | line l r =>
      simp only [LineRead.seen, LineRead.ofFrame, Frame.later, List.flatMap_append, flatMap_bytes_data, List.append_assoc]

end ShadeTree.Gateway
