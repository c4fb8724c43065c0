import Mathlib.Data.List.Basic
import RelayChat.Framing

/-!
# Lines, however their bytes arrive

Bytes arrive in a buffer in pieces of any size, and a line may be asked for at any
time, also when an earlier answer was an error.  A `Feed` is a reader with its buffer
and the answers it has given; what happens to it is a list of `Move`s.

What a stream of bytes says is defined without a reader: `wholeLines` are its lines,
each with its line feed, and `unfinished` is what comes after the last of them.

### The invariant

`Feed.Keeps` ties a feed to the stream that has arrived.  The stream is the lines that
were taken off and then the buffer, so nothing of it depends on where the pieces were
cut; and no line feed lies in the part of the buffer that was looked at already, so
that the line feed which is found next is the first one in the buffer.  Every move
keeps this (`Feed.Keeps.step`), hence every history (`Feed.Keeps.run`).
-/

namespace RelayChat.Framer

/-! ### The lines of a stream -/

/-- A line: it has one line feed, and that is its last byte. -/
def IsLine (line : List UInt8) : Prop :=
  ∃ body, line = body ++ [lineFeed] ∧ lineFeed ∉ body

/-- The lines of some bytes. -/
def wholeLines : List UInt8 → List (List UInt8)
  | [] => []
  | b :: rest =>
    if b = lineFeed then [b] :: wholeLines rest
    else
      match wholeLines rest with
      | [] => []
      | line :: more => (b :: line) :: more

/-- The bytes after the last line feed. -/
def unfinished : List UInt8 → List UInt8
  | [] => []
  | b :: rest => if lineFeed ∈ b :: rest then unfinished rest else b :: rest

/-- The line that comes next, or as much of it as there is. -/
def current (bytes : List UInt8) : List UInt8 :=
  (wholeLines bytes).headD bytes

/-- The texts of those lines that are not too long. -/
def textsWithin (limit : Nat) (lines : List (List UInt8)) : List String :=
  (lines.filter (·.length ≤ limit)).map lineText

variable {limit : Nat} {front bytes stream : List UInt8} {lines : List (List UInt8)}

/-- Bytes without a line feed, or a line and then bytes. -/
@[elab_as_elim]
theorem stream_induction {motive : List UInt8 → Prop}
    (tail : ∀ bytes, lineFeed ∉ bytes → motive bytes)
    (line : ∀ front rest, lineFeed ∉ front → motive rest → motive (front ++ lineFeed :: rest))
    (bytes : List UInt8) : motive bytes := by
  by_cases h : lineFeed ∈ bytes
  · obtain ⟨front, rest, hbytes, hfront⟩ := List.eq_append_cons_of_mem h
    rw [hbytes]
    exact line front rest hfront (stream_induction tail line rest)
  · exact tail bytes h
termination_by bytes.length
decreasing_by
  simp only [hbytes, List.length_append, List.length_cons]
  omega

/-- The first line of some bytes ends at their first line feed. -/
theorem wholeLines_append (h : lineFeed ∉ front) (rest : List UInt8) :
    wholeLines (front ++ lineFeed :: rest) = (front ++ [lineFeed]) :: wholeLines rest := by
  induction front with
  | nil => simp [wholeLines]
  | cons b front ih =>
      obtain ⟨hb, hfront⟩ := not_or.mp (List.mem_cons.not.mp h)
      rw [List.cons_append, wholeLines, if_neg (Ne.symm hb), ih hfront]
      rfl

/-- Without a line feed there is no line. -/
theorem wholeLines_eq_nil (h : lineFeed ∉ bytes) : wholeLines bytes = [] := by
  induction bytes with
  | nil => rfl
  | cons b rest ih =>
      obtain ⟨hb, hrest⟩ := not_or.mp (List.mem_cons.not.mp h)
      rw [wholeLines, if_neg (Ne.symm hb), ih hrest]

/-- What comes before a line feed is finished. -/
theorem unfinished_append (front rest : List UInt8) :
    unfinished (front ++ lineFeed :: rest) = unfinished rest := by
  induction front with
  | nil => simp [unfinished]
  | cons b front ih => rw [List.cons_append, unfinished, if_pos (by simp), ih]

/-- Without a line feed nothing is finished. -/
theorem unfinished_of_not_mem (h : lineFeed ∉ bytes) : unfinished bytes = bytes := by
  cases bytes with
  | nil => rfl
  | cons b rest => rw [unfinished, if_neg h]

/-- The lines of a stream, and what comes after them, are the stream. -/
theorem flatten_wholeLines (bytes : List UInt8) :
    (wholeLines bytes).flatten ++ unfinished bytes = bytes := by
  induction bytes using stream_induction with
  | tail bytes h => simp [wholeLines_eq_nil h, unfinished_of_not_mem h]
  | line front rest hfront ih =>
      rw [wholeLines_append hfront, unfinished_append, List.flatten_cons, List.append_assoc, ih]
      simp

/-- The lines of some bytes are lines. -/
theorem isLine_of_mem_wholeLines {line : List UInt8} (h : line ∈ wholeLines bytes) :
    IsLine line := by
  induction bytes using stream_induction with
  | tail bytes hfree => simp [wholeLines_eq_nil hfree] at h
  | line front rest hfront ih =>
      rw [wholeLines_append hfront] at h
      rcases List.mem_cons.mp h with rfl | hrest
      · exact ⟨front, rfl, hfront⟩
      · exact ih hrest

/-- What is unfinished has no line feed in it. -/
theorem lineFeed_not_mem_unfinished (bytes : List UInt8) : lineFeed ∉ unfinished bytes := by
  induction bytes using stream_induction with
  | tail bytes h => rwa [unfinished_of_not_mem h]
  | line front rest hfront ih => rwa [unfinished_append]

/-- Lines that stand before some bytes are the first lines of the whole. -/
theorem wholeLines_flatten_append (h : ∀ line ∈ lines, IsLine line) (rest : List UInt8) :
    wholeLines (lines.flatten ++ rest) = lines ++ wholeLines rest := by
  induction lines with
  | nil => rfl
  | cons line lines ih =>
      obtain ⟨⟨body, rfl, hbody⟩, hlines⟩ := List.forall_mem_cons.mp h
      rw [List.flatten_cons, List.append_assoc, List.append_assoc, List.singleton_append,
        wholeLines_append hbody, ih hlines, List.cons_append]

theorem unfinished_flatten_append (h : ∀ line ∈ lines, IsLine line) (rest : List UInt8) :
    unfinished (lines.flatten ++ rest) = unfinished rest := by
  induction lines with
  | nil => rfl
  | cons line lines ih =>
      obtain ⟨⟨body, rfl, -⟩, hlines⟩ := List.forall_mem_cons.mp h
      rw [List.flatten_cons, List.append_assoc, List.append_assoc, List.singleton_append,
        unfinished_append, ih hlines]

/-- No line of the bytes is too long, not even the one that has not ended. -/
def Fits (limit : Nat) (bytes : List UInt8) : Prop :=
  (∀ line ∈ wholeLines bytes, line.length ≤ limit) ∧ (unfinished bytes).length ≤ limit

/-- Bytes fit if their first line does, and what comes after it. -/
theorem fits_append_line (h : lineFeed ∉ front) (rest : List UInt8) :
    Fits limit (front ++ lineFeed :: rest) ↔
      (front ++ [lineFeed]).length ≤ limit ∧ Fits limit rest := by
  rw [Fits, wholeLines_append h, unfinished_append, List.forall_mem_cons, and_assoc]
  rfl

/-- What has arrived of bytes in which no line is too long holds no line that is. -/
theorem Fits.of_append {more : List UInt8} (h : Fits limit (bytes ++ more)) :
    Fits limit bytes := by
  induction bytes using stream_induction with
  | line front rest hfront ih =>
      rw [List.append_assoc, List.cons_append, fits_append_line hfront] at h
      exact (fits_append_line hfront rest).mpr ⟨h.1, ih h.2⟩
  | tail bytes hfree =>
      -- All of it is the beginning of one line, which ends in what is still to come or not at all.
      have hlength : bytes.length ≤ limit := by
        by_cases hfeed : lineFeed ∈ more
        · obtain ⟨front, rest, rfl, hfront⟩ := List.eq_append_cons_of_mem hfeed
          have hline : lineFeed ∉ bytes ++ front := by
            rw [List.mem_append, not_or]
            exact ⟨hfree, hfront⟩
          rw [← List.append_assoc, fits_append_line hline] at h
          have := h.1
          simp only [List.length_append] at this
          omega
        · have hnone : lineFeed ∉ bytes ++ more := by
            rw [List.mem_append, not_or]
            exact ⟨hfree, hfeed⟩
          have := h.2
          rw [unfinished_of_not_mem hnone, List.length_append] at this
          omega
      rw [Fits, wholeLines_eq_nil hfree, unfinished_of_not_mem hfree]
      exact ⟨by simp, hlength⟩

/-- If the bytes fit, so does the line at hand, finished or not. -/
theorem Fits.length_current_le (h : Fits limit bytes) : (current bytes).length ≤ limit := by
  by_cases hfeed : lineFeed ∈ bytes
  · obtain ⟨front, rest, rfl, hfront⟩ := List.eq_append_cons_of_mem hfeed
    rw [current, wholeLines_append hfront, List.headD_cons]
    exact ((fits_append_line hfront rest).mp h).1
  · rw [current, wholeLines_eq_nil hfeed, List.headD_nil]
    have := h.2
    rwa [unfinished_of_not_mem hfeed] at this

theorem fits_flatten_append (h : ∀ line ∈ lines, IsLine line) (rest : List UInt8) :
    Fits limit (lines.flatten ++ rest) ↔
      (∀ line ∈ lines, line.length ≤ limit) ∧ Fits limit rest := by
  rw [Fits, wholeLines_flatten_append h, unfinished_flatten_append h, List.forall_mem_append,
    and_assoc]
  rfl

@[simp] theorem textsWithin_append (limit : Nat) (a b : List (List UInt8)) :
    textsWithin limit (a ++ b) = textsWithin limit a ++ textsWithin limit b := by
  simp [textsWithin]

/-- Of one line its text is given, unless it is too long. -/
theorem textsWithin_singleton (limit : Nat) (line : List UInt8) :
    textsWithin limit [line] =
      (if line.length ≤ limit then some (lineText line) else none).toList := by
  by_cases h : line.length ≤ limit <;> simp [textsWithin, h]

/-! ### Taking a line off -/

/-- The answer that gives a text, if the bytes it is about are not too many. -/
def answerFor (limit length : Nat) (text : Option String) : Answer :=
  if limit < length then .error (.lineTooLong length limit) else .ok text

/-- The line that an answer gives. -/
def textOf : Answer → Option String
  | .ok text => text
  | .error _ => none

/-- The answer is an error exactly if there are too many bytes, and it says how many. -/
theorem answerFor_eq_error_iff {length : Nat} {text : Option String} {e : TransportError} :
    answerFor limit length text = .error e ↔ limit < length ∧ e = .lineTooLong length limit := by
  unfold answerFor
  split
  · next h => simp [h, eq_comm]
  · next h => simp [h]

/-- The answer gives a text exactly if there is one and the bytes are not too many. -/
theorem textOf_answerFor (limit length : Nat) (text : Option String) :
    textOf (answerFor limit length text) = if length ≤ limit then text else none := by
  unfold answerFor
  split
  · next h => rw [if_neg (Nat.not_le.mpr h)]; rfl
  · next h => rw [if_pos (Nat.not_lt.mp h)]; rfl

variable {f : Framer}

/-- The first line feed of the buffer is found from any place before it. -/
theorem decode_line (hfront : lineFeed ∉ front) (hscanned : f.scanned ≤ front.length)
    (rest : List UInt8) :
    f.decode (front ++ lineFeed :: rest) =
      (answerFor f.limit (front ++ [lineFeed]).length (some (lineText (front ++ [lineFeed]))),
        { f with scanned := 0 }, rest) := by
  have hfind : ((front ++ lineFeed :: rest).drop f.scanned).idxOf? lineFeed
      = some (front.length - f.scanned) := by
    have hfree : (front.drop f.scanned).idxOf? lineFeed = none :=
      List.idxOf?_eq_none_iff.mpr fun h => hfront (List.mem_of_mem_drop h)
    rw [List.idxOf?] at hfree ⊢
    rw [List.drop_append_of_le_length hscanned, List.findIdx?_append, hfree, List.findIdx?_cons]
    simp
  have hlength : f.scanned + (front.length - f.scanned) + 1 = (front ++ [lineFeed]).length := by
    rw [List.length_append, List.length_singleton]
    omega
  have hsplit : front ++ lineFeed :: rest = (front ++ [lineFeed]) ++ rest := by simp
  rw [decode, hfind]
  simp only [hlength]
  rw [hsplit, List.take_left, List.drop_left]
  rfl

/-- Without a line feed in it, the buffer stays as it is. -/
theorem decode_tail (h : lineFeed ∉ bytes) :
    f.decode bytes =
      (answerFor f.limit bytes.length none, { f with scanned := bytes.length }, bytes) := by
  have hfind : (bytes.drop f.scanned).idxOf? lineFeed = none := by
    rw [List.idxOf?_eq_none_iff]
    exact fun hmem => h (List.mem_of_mem_drop hmem)
  rw [decode, hfind]
  rfl

/-! ### A buffer at work -/

/-- What happens at a buffer. -/
inductive Move where
  /-- Bytes arrive. -/
  | feed (bytes : List UInt8)
  /-- A line is asked for. -/
  | decode
deriving Repr, DecidableEq

/-- All bytes that arrive. -/
def arrived (moves : List Move) : List UInt8 :=
  moves.flatMap fun
    | .feed bytes => bytes
    | .decode => []

theorem arrived_append (a b : List Move) : arrived (a ++ b) = arrived a ++ arrived b :=
  List.flatMap_append

/-- A reader at work. -/
structure Feed where
  /-- The reader. -/
  reader : Framer
  /-- The bytes that have arrived and have not been taken off. -/
  buffer : List UInt8 := []
  /-- What the reader has answered. -/
  answers : List Answer := []

namespace Feed

/-- A reader before anything has arrived. -/
def start (limit : Nat) : Feed where
  reader := { limit }

/-- What a move does. -/
def step (s : Feed) : Move → Feed
  | .feed bytes => { s with buffer := s.buffer ++ bytes }
  | .decode =>
    let (answer, reader, buffer) := s.reader.decode s.buffer
    ⟨reader, buffer, s.answers ++ [answer]⟩

/-- What a list of moves does. -/
def run (s : Feed) (moves : List Move) : Feed :=
  moves.foldl step s

/-- The lines that have been given. -/
def texts (s : Feed) : List String :=
  s.answers.filterMap textOf

/-- **What every move keeps**, for the stream that has arrived so far. -/
structure Keeps (limit : Nat) (stream : List UInt8) (s : Feed) : Prop where
  /-- The limit is the one that the reader was started with. -/
  limit_eq : s.reader.limit = limit
  /-- The reader has looked at no more than there is. -/
  scanned_le : s.reader.scanned ≤ s.buffer.length
  /-- What the reader has looked at holds no line feed. -/
  scanned_free : lineFeed ∉ s.buffer.take s.reader.scanned
  /-- Lines were taken off; those not too long were given, and the rest is in the buffer. -/
  taken : ∃ lines, (∀ line ∈ lines, IsLine line) ∧ stream = lines.flatten ++ s.buffer ∧
    s.texts = textsWithin limit lines

variable {s : Feed}

/-- At the beginning nothing has been looked at and nothing taken off. -/
theorem keeps_start (limit : Nat) : Keeps limit [] (start limit) where
  limit_eq := rfl
  scanned_le := Nat.le_refl _
  scanned_free := List.not_mem_nil
  taken := ⟨[], by simp, rfl, rfl⟩

/-- Bytes that arrive change nothing of what was looked at or taken off. -/
theorem Keeps.feed (h : Keeps limit stream s) (bytes : List UInt8) :
    Keeps limit (stream ++ bytes) (s.step (.feed bytes)) where
  limit_eq := h.limit_eq
  scanned_le := by
    have := h.scanned_le
    simp only [Feed.step, List.length_append]
    omega
  scanned_free := by
    rw [Feed.step, List.take_append_of_le_length h.scanned_le]
    exact h.scanned_free
  taken := by
    obtain ⟨lines, hlines, hstream, htexts⟩ := h.taken
    exact ⟨lines, hlines, by rw [hstream, List.append_assoc]; rfl, htexts⟩

/-- What was looked at lies before the first line feed. -/
theorem Keeps.scanned_le_of_line (h : Keeps limit stream s) {rest : List UInt8}
    (hbuffer : s.buffer = front ++ lineFeed :: rest) : s.reader.scanned ≤ front.length := by
  by_contra hlt
  refine h.scanned_free ?_
  rw [hbuffer, List.take_append, List.mem_append]
  obtain ⟨k, hk⟩ : ∃ k, s.reader.scanned - front.length = k + 1 :=
    Nat.exists_eq_add_one.mpr (by omega)
  rw [hk, List.take_succ_cons]
  exact .inr List.mem_cons_self

/-- A reader with a line in its buffer answers with that line, and starts anew behind it. -/
theorem Keeps.decode_line (h : Keeps limit stream s) (hfront : lineFeed ∉ front)
    {rest : List UInt8} (hbuffer : s.buffer = front ++ lineFeed :: rest) :
    s.reader.decode s.buffer =
      (answerFor limit (front ++ [lineFeed]).length (some (lineText (front ++ [lineFeed]))),
        ⟨limit, 0⟩, rest) := by
  rw [hbuffer, Framer.decode_line hfront (h.scanned_le_of_line hbuffer), h.limit_eq]

/-- A reader without one has looked at all that there is. -/
theorem Keeps.decode_tail (h : Keeps limit stream s) (hfree : lineFeed ∉ s.buffer) :
    s.reader.decode s.buffer =
      (answerFor limit s.buffer.length none, ⟨limit, s.buffer.length⟩, s.buffer) := by
  rw [Framer.decode_tail hfree, h.limit_eq]

/-- Asking for a line takes the first one off, if there is one. -/
theorem Keeps.decode (h : Keeps limit stream s) : Keeps limit stream (s.step .decode) := by
  obtain ⟨lines, hlines, hstream, htexts⟩ := h.taken
  by_cases hfeed : lineFeed ∈ s.buffer
  · obtain ⟨front, rest, hbuffer, hfront⟩ := List.eq_append_cons_of_mem hfeed
    have hline : IsLine (front ++ [lineFeed]) := ⟨front, rfl, hfront⟩
    rw [step, h.decode_line hfront hbuffer]
    refine ⟨rfl, Nat.zero_le _, by simp, lines ++ [front ++ [lineFeed]], ?_, ?_, ?_⟩
    · intro line hmem
      rcases List.mem_append.mp hmem with hold | hnew
      · exact hlines line hold
      · rwa [List.mem_singleton.mp hnew]
    · simp [hstream, hbuffer]
    · rw [textsWithin_append, ← htexts, texts, texts, List.filterMap_append]
      congr 1
      rw [textsWithin_singleton, ← textOf_answerFor, List.filterMap_cons]
      cases textOf _ <;> rfl
  · rw [step, h.decode_tail hfeed]
    refine ⟨rfl, Nat.le_refl _, by simpa using hfeed, lines, hlines, hstream, ?_⟩
    rw [← htexts, texts, texts, List.filterMap_append, List.filterMap_cons, textOf_answerFor,
      ite_self, List.filterMap_nil, List.append_nil]

/-- **Every move keeps it**, for the stream with what arrives in the move. -/
theorem Keeps.step (h : Keeps limit stream s) (move : Move) :
    Keeps limit (stream ++ arrived [move]) (s.step move) := by
  cases move with
  | feed bytes => simpa [arrived] using h.feed bytes
  | decode => simpa [arrived] using h.decode

/-- A history keeps it, for the stream with all that arrives in it. -/
theorem Keeps.run (h : Keeps limit stream s) (moves : List Move) :
    Keeps limit (stream ++ arrived moves) (s.run moves) := by
  induction moves generalizing s stream with
  | nil =>
      rw [arrived, List.flatMap_nil, List.append_nil]
      exact h
  | cons move moves ih =>
      rw [← List.singleton_append, arrived_append, ← List.append_assoc]
      exact ih (h.step move)

/-- The line that has not ended is all in the buffer. -/
theorem Keeps.unfinished_buffer (h : Keeps limit stream s) :
    unfinished s.buffer = unfinished stream := by
  obtain ⟨lines, hlines, hstream, -⟩ := h.taken
  rw [hstream, unfinished_flatten_append hlines]

/-- Asking for lines until the buffer has no line feed leaves what follows the last one. -/
theorem Keeps.buffer_run_decode (h : Keeps limit stream s) :
    (s.run (List.replicate (s.buffer.count lineFeed) .decode)).buffer = unfinished stream := by
  rw [← h.unfinished_buffer]
  generalize hbuffer : s.buffer = bytes
  induction bytes using stream_induction generalizing s with
  | tail bytes hfree =>
      rw [List.count_eq_zero_of_not_mem hfree, unfinished_of_not_mem hfree]
      exact hbuffer
  | line front rest hfront ih =>
      have hcount : (front ++ lineFeed :: rest).count lineFeed = rest.count lineFeed + 1 := by
        rw [List.count_append, List.count_eq_zero_of_not_mem hfront, List.count_cons_self]
        omega
      have hrest : (s.step .decode).buffer = rest := by
        rw [Feed.step, h.decode_line hfront hbuffer]
      rw [hcount, unfinished_append]
      exact ih h.decode hrest

/-- The only error is that the line at hand is too long, whole or as far as it has come. -/
theorem Keeps.decode_eq_error_iff (h : Keeps limit stream s) (e : TransportError) :
    (s.reader.decode s.buffer).1 = .error e ↔
      limit < (current s.buffer).length ∧ e = .lineTooLong (current s.buffer).length limit := by
  by_cases hfeed : lineFeed ∈ s.buffer
  · obtain ⟨front, rest, hbuffer, hfront⟩ := List.eq_append_cons_of_mem hfeed
    have hcurrent : current s.buffer = front ++ [lineFeed] := by
      rw [current, hbuffer, wholeLines_append hfront, List.headD_cons]
    rw [h.decode_line hfront hbuffer, hcurrent]
    exact answerFor_eq_error_iff
  · have hcurrent : current s.buffer = s.buffer := by
      rw [current, wholeLines_eq_nil hfeed, List.headD_nil]
    rw [h.decode_tail hfeed, hcurrent]
    exact answerFor_eq_error_iff

/-- Once the lines in the buffer have been asked for, all lines of the stream have been given
that are not too long. -/
theorem Keeps.texts_run_decode (h : Keeps limit stream s) :
    (s.run (List.replicate (s.buffer.count lineFeed) .decode)).texts =
      textsWithin limit (wholeLines stream) := by
  -- Nothing arrives while lines are asked for, so the stream is the same at the end.
  have hlast : Keeps limit stream (s.run (List.replicate (s.buffer.count lineFeed) .decode)) := by
    have harrived : arrived (List.replicate (s.buffer.count lineFeed) .decode) = [] := by
      simp [arrived]
    simpa [harrived] using h.run (List.replicate (s.buffer.count lineFeed) .decode)
  obtain ⟨all, hall, hstream, htexts⟩ := hlast.taken
  have hfree : lineFeed ∉ (s.run (List.replicate (s.buffer.count lineFeed) .decode)).buffer := by
    rw [h.buffer_run_decode]
    exact lineFeed_not_mem_unfinished _
  rw [htexts, hstream, wholeLines_flatten_append hall, wholeLines_eq_nil hfree, List.append_nil]

/-- While no line of the stream is too long, no answer is an error. -/
theorem Keeps.answers_ok_step (h : Keeps limit stream s) (hfits : Fits limit stream)
    (hok : ∀ answer ∈ s.answers, ∃ text, answer = .ok text) (move : Move) :
    ∀ answer ∈ (s.step move).answers, ∃ text, answer = .ok text := by
  cases move with
  | feed bytes => exact hok
  | decode =>
      obtain ⟨lines, hlines, rfl, -⟩ := h.taken
      have hbuffer : Fits limit s.buffer := ((fits_flatten_append hlines _).mp hfits).2
      have hnew : ∃ text, (s.reader.decode s.buffer).1 = .ok text := by
        cases hanswer : (s.reader.decode s.buffer).1 with
        | ok text => exact ⟨text, rfl⟩
        | error e =>
            have hlong := ((h.decode_eq_error_iff e).mp hanswer).1
            exact absurd hlong (Nat.not_lt.mpr hbuffer.length_current_le)
      exact List.forall_mem_append.mpr ⟨hok, List.forall_mem_singleton.mpr hnew⟩

/-- While no line of the stream is too long, no answer along a history is an error. -/
theorem Keeps.answers_ok_run (h : Keeps limit stream s) {moves : List Move}
    (hfits : Fits limit (stream ++ arrived moves))
    (hok : ∀ answer ∈ s.answers, ∃ text, answer = .ok text) :
    ∀ answer ∈ (s.run moves).answers, ∃ text, answer = .ok text := by
  induction moves generalizing s stream with
  | nil => exact hok
  | cons move moves ih =>
      rw [← List.singleton_append, arrived_append, ← List.append_assoc] at hfits
      exact ih (h.step move) hfits (h.answers_ok_step hfits.of_append.of_append hok move)

/-- **Lines do not depend on how their bytes arrive.**  After any moves,

* the reader has looked at no more than the buffer holds, and at no line feed in it;
* what has arrived is the lines taken off, then the buffer; the lines given are those of
  them that are not too long, in order;
* asking for a line fails exactly if the line at hand, or what has come of it, is too long;
* once the lines left in the buffer have been asked for, all lines of the stream that are not
  too long have been given, and the bytes after the last of them are left. -/
theorem lines_independent_of_arrival (limit : Nat) (moves : List Move) :
    let s := (start limit).run moves
    let last := s.run (List.replicate (s.buffer.count lineFeed) .decode)
    (s.reader.scanned ≤ s.buffer.length ∧ lineFeed ∉ s.buffer.take s.reader.scanned) ∧
    (∃ taken, arrived moves = taken.flatten ++ s.buffer ∧
      wholeLines (arrived moves) = taken ++ wholeLines s.buffer ∧
        s.texts = textsWithin limit taken) ∧
    (∀ e, (s.reader.decode s.buffer).1 = .error e ↔
      limit < (current s.buffer).length ∧ e = .lineTooLong (current s.buffer).length limit) ∧
    (lineFeed ∉ last.buffer ∧ last.buffer = unfinished (arrived moves) ∧
      last.texts = textsWithin limit (wholeLines (arrived moves))) := by
  intro s last
  have h : Keeps limit (arrived moves) s := (keeps_start limit).run moves
  obtain ⟨lines, hlines, hstream, htexts⟩ := h.taken
  have hwhole : wholeLines (arrived moves) = lines ++ wholeLines s.buffer := by
    rw [hstream, wholeLines_flatten_append hlines]
  refine ⟨⟨h.scanned_le, h.scanned_free⟩, ⟨lines, hstream, hwhole, htexts⟩,
    h.decode_eq_error_iff, ?_, h.buffer_run_decode, h.texts_run_decode⟩
  rw [h.buffer_run_decode]
  exact lineFeed_not_mem_unfinished _

end Feed
end RelayChat.Framer
