import RelayChat.Proofs.Chunk
import RelayChat.Proofs.Sending

/-!
# Lines over a stream, and in a chunk

Lines written one after another are a stream of bytes, and the same lines can be had from
it in two ways.  A reader of the stream looks for line feeds and drops the breaks before
them; a consumer of a chunk looks for CRLFs in its text.  The two have nothing in common
but what is written, and `framing_agrees_with_chunks` is their agreement on it.

Both halves rest on one fact about the lines: what is written of a line without a line feed
has one line feed, and that is its last byte.  For the reader this makes the lines of the
stream those that were written (`wholeLines_sent`).  For the consumer it makes every CRLF
of the text an end that was written, since no CRLF can be put together from the end of one
line and the beginning of the next (`Text.lines_flatMap`).
-/

namespace RelayChat

/-! ### Lines in a text -/

namespace Text

/-- A text without a line feed is one line. -/
theorem lines_of_not_mem {cs : List Char} (h : '\n' ∉ cs) : lines cs = [cs] := by
  fun_induction lines cs with
  | case1 => rfl
  | case2 rest => simp at h
  | case3 c rest _ ih =>
      rw [ih fun hmem => h (List.mem_cons_of_mem _ hmem)]
      rfl

/-- Texts without line feeds, each ended by a CRLF, are the lines of the whole; what comes after
the last end is an empty one. -/
theorem lines_flatMap {ls : List (List Char)} (h : ∀ cs ∈ ls, '\n' ∉ cs) :
    lines (ls.flatMap (· ++ ['\r', '\n'])) = ls ++ [[]] := by
  induction ls with
  | nil => rfl
  | cons cs ls ih =>
      obtain ⟨hcs, hls⟩ := List.forall_mem_cons.mp h
      rw [List.flatMap_cons, List.append_assoc]
      change lines (cs ++ '\r' :: '\n' :: ls.flatMap (· ++ ['\r', '\n'])) = cs :: (ls ++ [[]])
      rw [lines_append, lines_of_not_mem hcs, ih hls]
      rfl

theorem mem_of_mem_trimEnd {p : Char → Bool} {cs : List Char} {c : Char}
    (h : c ∈ trimEnd p cs) : c ∈ cs :=
  (List.rdropWhile_prefix p cs).subset h

/-- Without a line feed, only carriage returns are dropped at the end. -/
theorem trimEnd_isBreak {cs : List Char} (h : '\n' ∉ cs) :
    trimEnd Line.isBreak cs = trimEnd (· == '\r') cs := by
  change List.rdropWhile Line.isBreak cs = List.rdropWhile (· == '\r') cs
  induction cs using List.reverseRecOn with
  | nil => rfl
  | append_singleton cs c ih =>
      rw [List.mem_append, not_or, List.mem_singleton] at h
      have hc : Line.isBreak c = (c == '\r') := by
        rw [Line.isBreak, beq_eq_false_iff_ne.mpr (Ne.symm h.2), Bool.or_false]
      rw [List.rdropWhile_concat, List.rdropWhile_concat, hc, ih h.1]

theorem encode_flatMap {α : Type} (f : α → List Char) (xs : List α) :
    encode (xs.flatMap f) = xs.flatMap fun x => encode (f x) := by
  rw [encode, List.flatMap_assoc]
  rfl

end Text

namespace Framer

variable {lines : List String} {line : String}

/-- The bytes of lines that are written one after another. -/
def sent (lines : List String) : List UInt8 :=
  lines.flatMap fun line => encode line.toList

/-- A line without the carriage returns at its end. -/
def withoutReturns (line : String) : String :=
  String.ofList (Text.trimEnd (· == '\r') line.toList)

theorem toList_withoutReturns (h : '\n' ∉ line.toList) :
    (withoutReturns line).toList = Text.trimEnd Line.isBreak line.toList := by
  rw [withoutReturns, String.toList_ofList, Text.trimEnd_isBreak h]

/-- To drop carriage returns brings in no line feed. -/
theorem feed_not_mem_withoutReturns (h : '\n' ∉ line.toList) :
    '\n' ∉ (withoutReturns line).toList := by
  rw [withoutReturns, String.toList_ofList]
  exact fun hmem => h (Text.mem_of_mem_trimEnd hmem)

/-! ### The bytes that are written -/

/-- What is written of a line without line feeds is one line. -/
theorem isLine_encode (h : '\n' ∉ line.toList) : IsLine (encode line.toList) := by
  rw [isLine_encode_iff, List.count_eq_zero]
  exact fun hmem => h (Text.mem_of_mem_trimEnd hmem)

theorem forall_isLine_encode (h : ∀ line ∈ lines, '\n' ∉ line.toList) :
    ∀ bytes ∈ lines.map (encode ·.toList), IsLine bytes := by
  rw [List.forall_mem_map]
  exact fun line hline => isLine_encode (h line hline)

/-- The bytes as lines one after another, with nothing behind them. -/
theorem sent_eq_flatten (lines : List String) :
    sent lines = (lines.map (encode ·.toList)).flatten ++ [] := by
  rw [sent, List.flatMap_def, List.append_nil]

/-- **The lines of the stream** are those that were written. -/
theorem wholeLines_sent (h : ∀ line ∈ lines, '\n' ∉ line.toList) :
    wholeLines (sent lines) = lines.map (encode ·.toList) := by
  rw [sent_eq_flatten, wholeLines_flatten_append (forall_isLine_encode h), wholeLines,
    List.append_nil]

/-- Nothing comes after the last line that was written. -/
theorem unfinished_sent (h : ∀ line ∈ lines, '\n' ∉ line.toList) :
    unfinished (sent lines) = [] := by
  rw [sent_eq_flatten, unfinished_flatten_append (forall_isLine_encode h), unfinished]

/-- If no line is too long as it is written, none is in the stream. -/
theorem fits_sent {limit : Nat} (h : ∀ line ∈ lines, '\n' ∉ line.toList)
    (hlimit : ∀ line ∈ lines, (encode line.toList).length ≤ limit) : Fits limit (sent lines) := by
  refine ⟨?_, ?_⟩
  · rw [wholeLines_sent h, List.forall_mem_map]
    exact hlimit
  · rw [unfinished_sent h]
    exact Nat.zero_le _

/-- None of the lines is too long, so all of them are given. -/
theorem textsWithin_sent {limit : Nat} (h : ∀ line ∈ lines, '\n' ∉ line.toList)
    (hlimit : ∀ line ∈ lines, (encode line.toList).length ≤ limit) :
    textsWithin limit (wholeLines (sent lines)) = lines.map withoutReturns := by
  have hall : (wholeLines (sent lines)).filter (·.length ≤ limit) = wholeLines (sent lines) := by
    rw [List.filter_eq_self]
    intro bytes hbytes
    simpa using (fits_sent h hlimit).1 bytes hbytes
  rw [textsWithin, hall, wholeLines_sent h, List.map_map]
  refine List.map_congr_left fun line hline => ?_
  rw [Function.comp_apply, lineText_encode, ← toList_withoutReturns (h line hline),
    String.ofList_toList]

/-! ### The text that is written -/

/-- What is written is the bytes of the lines, each with its end. -/
theorem sent_eq_encode (h : ∀ line ∈ lines, '\n' ∉ line.toList) :
    sent lines =
      Text.encode (((lines.map withoutReturns).map String.toList).flatMap (· ++ ['\r', '\n'])) := by
  rw [Text.encode_flatMap, List.flatMap_map, List.flatMap_map]
  refine List.flatMap_congr fun line hline => ?_
  rw [encode, toList_withoutReturns (h line hline)]

/-- The text of the bytes is the lines, each with its end. -/
theorem decode_sent (h : ∀ line ∈ lines, '\n' ∉ line.toList) :
    Text.decode (sent lines) =
      ((lines.map withoutReturns).map String.toList).flatMap (· ++ ['\r', '\n']) := by
  rw [sent_eq_encode h, Text.decode_encode]

theorem map_ofList_filter (texts : List String) :
    ((texts.map String.toList).filter (!·.isEmpty)).map String.ofList =
      texts.filter (· ≠ "") := by
  have hempty : ∀ text : String, (!text.toList.isEmpty) = decide (text ≠ "") := by
    intro text
    rw [Bool.eq_iff_iff]
    simp
  rw [List.filter_map, List.map_map]
  simp [Function.comp_def, hempty]

/-- **The lines of the chunk** are those that were written, without the empty ones. -/
theorem lines_decode_sent (h : ∀ line ∈ lines, '\n' ∉ line.toList) :
    Chunk.lines (String.ofList (Text.decode (sent lines))) =
      (lines.map withoutReturns).filter (· ≠ "") := by
  have hfree : ∀ cs ∈ (lines.map withoutReturns).map String.toList, '\n' ∉ cs := by
    rw [List.map_map, List.forall_mem_map]
    exact fun line hline => feed_not_mem_withoutReturns (h line hline)
  have hlast : ([[]] : List (List Char)).filter (!·.isEmpty) = [] := rfl
  rw [Chunk.lines, String.toList_ofList, decode_sent h, Text.lines_flatMap hfree,
    List.filter_append, hlast, List.append_nil, map_ofList_filter]

/-- Texts without line feeds are chunks of one line each, or of none. -/
theorem flatMap_lines {texts : List String} (h : ∀ text ∈ texts, '\n' ∉ text.toList) :
    texts.flatMap Chunk.lines = texts.filter (· ≠ "") := by
  have hone : ∀ text ∈ texts, Chunk.lines text = [text].filter (· ≠ "") := by
    intro text htext
    rw [Chunk.lines, Text.lines_of_not_mem (h text htext)]
    exact map_ofList_filter [text]
  rw [List.flatMap_congr hone, ← List.filter_flatMap, List.flatMap_singleton']

/-! ### The two ways -/

/-- **Reading a stream and splitting its text agree.**  However the bytes of lines without a line
feed arrive, as long as none of the lines is too long,

* the reader gives the lines that were written, each without the carriage returns at its end,
  answers with no error, and leaves nothing;
* the text of the same bytes, taken as one chunk, has the same lines but for the empty ones;
* so the items of that chunk are those of the lines one by one, unless an error ends a chunk. -/
theorem framing_agrees_with_chunks (limit : Nat) (lines : List String)
    (hfree : ∀ line ∈ lines, '\n' ∉ line.toList)
    (hlimit : ∀ line ∈ lines, (encode line.toList).length ≤ limit) (moves : List Move)
    (hmoves : arrived moves = sent lines) :
    let s := (Feed.start limit).run moves
    let last := s.run (List.replicate (s.buffer.count lineFeed) .decode)
    let chunk := String.ofList (Text.decode (sent lines))
    (last.texts = lines.map withoutReturns ∧ last.buffer = [] ∧
      ∀ answer ∈ last.answers, ∃ text, answer = .ok text) ∧
    (Text.encode chunk.toList = sent lines ∧
      Chunk.lines chunk = last.texts.filter (· ≠ "")) ∧
    ∀ policy, policy ≠ .propagate →
      Chunk.items policy chunk = last.texts.flatMap (Chunk.items policy) := by
  intro s last chunk
  have hkeeps : Feed.Keeps limit (sent lines) s := by
    have hrun := (Feed.keeps_start limit).run moves
    rwa [List.nil_append, hmoves] at hrun
  have hfits := fits_sent hfree hlimit
  have htexts : last.texts = lines.map withoutReturns := by
    rw [hkeeps.texts_run_decode, textsWithin_sent hfree hlimit]
  have hlines : Chunk.lines chunk = last.texts.filter (· ≠ "") := by
    rw [htexts]
    exact lines_decode_sent hfree
  refine ⟨⟨htexts, ?_, ?_⟩, ⟨?_, hlines⟩, fun policy hpolicy => ?_⟩
  · rw [hkeeps.buffer_run_decode, unfinished_sent hfree]
  · have hquiet : arrived (List.replicate (s.buffer.count lineFeed) .decode) = [] := by
      simp [arrived]
    have hstart : ∀ answer ∈ s.answers, ∃ text, answer = .ok text := by
      refine (Feed.keeps_start limit).answers_ok_run ?_ (by simp [Feed.start])
      rwa [List.nil_append, hmoves]
    refine hkeeps.answers_ok_run ?_ hstart
    rwa [hquiet, List.append_nil]
  · rw [String.toList_ofList, decode_sent hfree, ← sent_eq_encode hfree]
  · have hgiven : ∀ text ∈ last.texts, '\n' ∉ text.toList := by
      rw [htexts, List.forall_mem_map]
      exact fun line hline => feed_not_mem_withoutReturns (hfree line hline)
    rw [Chunk.flatMap_items hpolicy, flatMap_lines hgiven, ← hlines, Chunk.items_eq]

/-- Three lines, one of them empty and one with carriage returns inside and at its end, of which
the first arrives cut inside a character. -/
theorem lines_cut_inside_character :
    let lines := ["PING :é", "", "QUIT :a\rb\r"]
    let moves : List Move := [.feed ((sent lines).take 7), .decode, .feed ((sent lines).drop 7)]
    let s := (Feed.start 11).run moves
    let last := s.run (List.replicate (s.buffer.count lineFeed) .decode)
    (∀ line ∈ lines, '\n' ∉ line.toList) ∧ (∀ line ∈ lines, (encode line.toList).length ≤ 11) ∧
      arrived moves = sent lines ∧ last.texts = ["PING :é", "", "QUIT :a\rb"] ∧
      Chunk.lines (String.ofList (Text.decode (sent lines))) = ["PING :é", "QUIT :a\rb"] := by
  intro lines moves s last
  have hfree : ∀ line ∈ lines, '\n' ∉ line.toList := by decide
  have hlimit : ∀ line ∈ lines, (encode line.toList).length ≤ 11 := by decide +kernel
  have hmoves : arrived moves = sent lines := by decide +kernel
  obtain ⟨⟨htexts, -⟩, ⟨-, hlines⟩, -⟩ :=
    framing_agrees_with_chunks 11 lines hfree hlimit moves hmoves
  have hgiven : lines.map withoutReturns = ["PING :é", "", "QUIT :a\rb"] := by decide +kernel
  rw [hgiven] at htexts
  refine ⟨hfree, hlimit, hmoves, htexts, ?_⟩
  rw [hlines, htexts]
  rfl

end Framer

end RelayChat
