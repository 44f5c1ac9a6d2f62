import Mathlib.Tactic.Use
import PoolGraph.Proofs.LastPart
import PoolGraph.Proofs.Source.Slices
import PoolGraph.Source.Lines

/-!
# Lines and columns

The table of lines and the bisection in it find what the bytes before an offset show themselves
(`Source.lineInfo_eq`).  In a file of valid UTF-8 line and column therefore identify a position
(`Source.lineInfo_boundaries`): a line feed is never part of another character, so the bytes and the
characters of a file have the same lines.
-/

namespace PoolGraph

open Source (lineFeed)

/-! ### Decoding lines -/

namespace Text

/-- A line feed stands in the bytes of no other character. -/
theorem lineFeed_mem_utf8EncodeChar {c : Char} :
  lineFeed ∈ String.utf8EncodeChar c ↔ c = '\n'
  := by
  constructor
  · intro h
    obtain ⟨i, hi, same⟩ := List.getElem_of_mem h
    have first : (String.utf8EncodeChar c)[i].IsUTF8FirstByte := by
      rw [same]
      decide
    obtain rfl := UInt8.isUTF8FirstByte_getElem_utf8EncodeChar.mp first
    have begins : String.utf8EncodeChar c
        = String.utf8EncodeChar '\n' ++ (String.utf8EncodeChar c).tail := by
      rw [← List.cons_head_tail (List.ne_nil_of_length_pos hi), List.tail_cons,
        List.head_eq_getElem, same]
      rfl
    have found := headChar?_append c []
    rw [begins, List.append_assoc, headChar?_append] at found
    apply (Option.some.inj found).symm
  · rintro rfl
    decide

/-- A character that bytes start with takes their front. -/
theorem exists_of_headChar? {bytes : List UInt8} {c : Char} (h : headChar? bytes = some c) :
  ∃ rest, bytes = String.utf8EncodeChar c ++ rest
  := by
  have whole := ByteArray.eq_of_utf8DecodeChar?_eq_some h
  have front := congrArg (fun b : ByteArray => b.data.toList) whole
  rw [ByteArray.data_append, Array.toList_append, List.toList_data_toByteArray] at front
  have all : bytes.take 4 ++ bytes.drop 4 = bytes := List.take_append_drop 4 bytes
  rw [show bytes.take 4 = _ from front, List.append_assoc] at all
  exact ⟨_, all.symm⟩

/-- A line feed behind bytes is no part of a character that they start with. -/
theorem headChar?_concat (lead : UInt8) (rest : List UInt8) :
  headChar? (lead :: rest ++ [lineFeed]) = headChar? (lead :: rest)
  := by
  cases found : headChar? (lead :: rest) with
  | some c =>
    obtain ⟨more, h⟩ := exists_of_headChar? found
    rw [h, List.append_assoc, headChar?_append]
  | none =>
    cases other : headChar? (lead :: rest ++ [lineFeed]) with
    | none => rfl
    | some c =>
      obtain ⟨more, h⟩ := exists_of_headChar? other
      rcases List.eq_nil_or_concat more with rfl | ⟨more, last, rfl⟩
      · rw [List.append_nil] at h
        have inside : lineFeed ∈ String.utf8EncodeChar c := by
          rw [← h]
          apply List.mem_concat_self
        obtain rfl := lineFeed_mem_utf8EncodeChar.mp inside
        have length := congrArg List.length h
        rw [List.length_append, List.length_cons] at length
        cases Nat.succ.inj length
      · rw [List.concat_eq_append, ← List.append_assoc] at h
        rw [(List.append_inj' h rfl).1, headChar?_append] at found
        cases found

/-- A line feed is no second byte of a character. -/
theorem lineFeed_lt_of_secondByteRange? {lead low high : UInt8}
    (h : secondByteRange? lead = some (low, high)) :
  lineFeed < low
  := by
  unfold secondByteRange? at h
  repeat' split at h
  all_goals cases h <;> decide

/-- A broken character takes no more bytes than there are. -/
theorem brokenTail_le_length (lead : UInt8) (rest : List UInt8) :
  brokenTail lead rest ≤ rest.length
  := by
  fun_cases brokenTail lead rest <;> simp

/-- A line feed behind bytes belongs to no malformed character. -/
theorem brokenTail_concat (lead : UInt8) (rest : List UInt8) :
  brokenTail lead (rest ++ [lineFeed]) = brokenTail lead rest
  := by
  unfold brokenTail
  cases found : secondByteRange? lead with
  | none => rfl
  | some range =>
    obtain ⟨low, high⟩ := range
    have above := lineFeed_lt_of_secondByteRange? found
    rcases rest with _ | ⟨second, _ | ⟨third, more⟩⟩
    · have apart : ¬ low ≤ lineFeed := UInt8.not_le.mpr above
      simp [apart]
    · simp [lineFeed]
    · rfl

/-- A line feed at the end is decoded as itself. -/
theorem decodeLossy_concat (bytes : List UInt8) :
  decodeLossy (bytes ++ [lineFeed]) = decodeLossy bytes ++ ['\n']
  := by
  -- what is taken in front, a character or a malformed part, ends before the line feed
  fun_induction decodeLossy bytes with
  | case1 => apply decodeLossy_utf8Encode ['\n']
  | case2 lead rest c h ih =>
    rw [List.cons_append, decodeLossy, ← List.cons_append, headChar?_concat, h]
    obtain ⟨more, hmore⟩ := exists_of_headChar? h
    have length := congrArg List.length hmore
    rw [List.length_cons, List.length_append, String.length_utf8EncodeChar] at length
    dsimp only
    rw [List.drop_append_of_le_length (by omega), ih]
    rfl
  | case3 lead rest h ih =>
    rw [List.cons_append, decodeLossy, ← List.cons_append, headChar?_concat, h]
    dsimp only
    rw [brokenTail_concat, List.drop_append_of_le_length (brokenTail_le_length lead rest), ih]
    rfl

/-- Bytes without a line feed are decoded to characters without one. -/
theorem not_mem_decodeLossy {bytes : List UInt8} (absent : lineFeed ∉ bytes) :
  '\n' ∉ decodeLossy bytes
  := by
  fun_induction decodeLossy bytes with
  | case1 => apply List.not_mem_nil
  | case2 lead rest c h ih =>
    obtain ⟨more, hmore⟩ := exists_of_headChar? h
    refine List.not_mem_cons_of_ne_of_not_mem ?_ (ih fun later => ?_)
    · rintro rfl
      apply absent
      rw [hmore]
      apply List.mem_append_left _ (lineFeed_mem_utf8EncodeChar.mpr rfl)
    · exact absent (.tail _ (List.mem_of_mem_drop later))
  | case3 lead rest h ih =>
    refine List.not_mem_cons_of_ne_of_not_mem (by decide) (ih fun later => ?_)
    exact absent (.tail _ (List.mem_of_mem_drop later))

/-- Trimming a character that is not there changes nothing. -/
theorem trimEnd_of_not_mem {c : Char} {text : List Char} (absent : c ∉ text) :
  trimEnd c text = text
  := by
  rw [trimEnd, List.reverse_eq_iff]
  cases h : text.reverse with
  | nil => rfl
  | cons last rest =>
    apply List.dropWhile_cons_of_neg
    intro same
    obtain rfl := beq_iff_eq.mp same
    apply absent
    rw [← List.mem_reverse, h]
    exact .head _

/-- Trimming takes one character off the end. -/
theorem trimEnd_concat (c : Char) (text : List Char) :
  trimEnd c (text ++ [c]) = trimEnd c text
  := by
  rw [trimEnd, List.reverse_concat, List.dropWhile_cons, if_pos (beq_self_eq_true c), trimEnd]

end Text

/-! ### Bisection -/

/-- Bisection finds where the numbers that satisfy a property end. -/
theorem bisect_eq {p : Nat → Bool} {k low high : Nat} (ends : ∀ i, p i = true ↔ i < k)
    (above : low ≤ k) (below : k ≤ high) :
  bisect p low high = k
  := by
  fun_induction bisect p low high with
  | case1 low high wide middle hp ih => apply ih ((ends _).mp hp) below
  | case2 low high wide middle hp ih =>
    exact ih above (Nat.le_of_not_lt fun less => hp ((ends _).mpr less))
  | case3 low high narrow => omega

namespace Source

/-! ### Beginnings of lines -/

/-- The line feeds of two parts are those of the first and, moved on, those of the second. -/
theorem behindLineFeeds_append (offset : Nat) (xs ys : List UInt8) :
  behindLineFeeds offset (xs ++ ys)
    = behindLineFeeds offset xs ++ behindLineFeeds (offset + xs.length) ys
  := by
  rw [behindLineFeeds, List.zipIdx_append, List.filter_append, List.map_append, behindLineFeeds,
    behindLineFeeds, Nat.add_comm]

/-- A line begins behind the first byte and not behind the end. -/
theorem mem_behindLineFeeds {offset place : Nat} {bytes : List UInt8}
    (h : place ∈ behindLineFeeds offset bytes) :
  offset < place ∧ place ≤ offset + bytes.length
  := by
  obtain ⟨⟨byte, here⟩, hmem, rfl⟩ := List.mem_map.mp h
  have found := List.mem_zipIdx (List.mem_filter.mp hmem).1
  dsimp only
  omega

/-- There are as many places behind line feeds as line feeds. -/
theorem length_behindLineFeeds (offset : Nat) (bytes : List UInt8) :
  (behindLineFeeds offset bytes).length = bytes.count lineFeed
  := by
  have bare : bytes.count lineFeed
      = ((bytes.zipIdx offset).map Prod.fst).countP (· == lineFeed) := by
    rw [List.zipIdx_map_fst, List.count]
  rw [bare, List.countP_map, behindLineFeeds, List.length_map, ← List.countP_eq_length_filter]
  rfl

theorem behindLineFeeds_eq_nil {offset : Nat} {bytes : List UInt8} (absent : lineFeed ∉ bytes) :
  behindLineFeeds offset bytes = []
  := by
  rw [← List.length_eq_zero_iff, length_behindLineFeeds, List.count_eq_zero_of_not_mem absent]

/-- Bisection in a table tells how many of its numbers lie at or before an offset. -/
theorem bisect_append {first later : List Nat} {offset : Nat}
    (small : ∀ x ∈ first, x ≤ offset) (large : ∀ x ∈ later, offset < x) :
  bisect (fun i => (first ++ later).toArray[i]?.any (· ≤ offset)) 0 (first ++ later).toArray.size
    = first.length
  := by
  apply bisect_eq
  · intro i
    rw [List.getElem?_toArray, Option.any_eq_true]
    constructor
    · rintro ⟨x, hx, within⟩
      by_contra past
      rw [List.getElem?_append_right (Nat.le_of_not_lt past)] at hx
      have := large x (List.mem_of_getElem? hx)
      have := of_decide_eq_true within
      omega
    · intro inside
      use first[i]
      constructor
      · rw [List.getElem?_append_left inside, List.getElem?_eq_getElem inside]
      · apply decide_eq_true (small _ (List.getElem_mem inside))
  · apply Nat.zero_le _
  · rw [List.size_toArray, List.length_append]
    apply Nat.le_add_right

/-- A slice between two parts is the text of the part between them. -/
theorem slice_append {source : Source} {a b c : List UInt8}
    (bytes : source.data.data.toList = a ++ b ++ c) :
  source.slice a.length (a.length + b.length) = .ok (String.ofList (Text.decodeLossy b))
  := by
  have size : source.data.size = a.length + b.length + c.length := by
    rw [ByteArray.size, ← Array.length_toList, bytes, List.length_append, List.length_append]
  have part : (source.data.extract a.length (a.length + b.length)).data.toList = b := by
    rw [ByteArray.data_extract, Array.toList_extract, bytes]
    simp
  rw [slice, if_pos ⟨Nat.le_add_right _ _, by omega⟩, part]

/-! ### The line of an offset -/

/-- The bytes of a file, cut at an offset and at both ends of the line around it.  The bytes of that
line are `head` and `tail`. -/
structure Cut (source : Source) (offset : Nat) (lines head tail past : List UInt8) : Prop where
  bytes : source.data.data.toList = lines ++ head ++ tail ++ past
  before : source.data.data.toList.take offset = lines ++ head
  line : lineFeed ∉ head ++ tail
  opens : lines = [] ∨ ∃ more, lines = more ++ [lineFeed]
  closes : past = [] ∨ ∃ more, past = lineFeed :: more

/-- The bytes fall into the lines before an offset, the head and the tail of its line, and the
rest. -/
theorem exists_cut (source : Source) (offset : Nat) :
  ∃ lines past, Cut source offset lines (lastPart lineFeed (source.data.data.toList.take offset))
    ((source.data.data.toList.drop offset).takeWhile (· != lineFeed)) past
  := by
  obtain ⟨lines, before, absent, opens⟩ :=
    exists_lastPart lineFeed (source.data.data.toList.take offset)
  refine ⟨lines, (source.data.data.toList.drop offset).dropWhile (· != lineFeed), ?_, before, ?_,
    opens, dropWhile_bne lineFeed _⟩
  · rw [← before, List.append_assoc, List.takeWhile_append_dropWhile, List.take_append_drop]
  · apply List.not_mem_append absent
    intro inside
    have apart := List.mem_takeWhile_imp inside
    rw [bne_self_eq_false] at apart
    cases apart

namespace Cut

variable {source : Source} {offset : Nat} {lines head tail past : List UInt8}

/-- The table of line starts has those up to the offset and then those behind it. -/
theorem lineStarts_eq (cut : Cut source offset lines head tail past) :
  source.lineStarts = (0 :: behindLineFeeds 0 (lines ++ head)
    ++ behindLineFeeds (lines ++ head).length (tail ++ past)).toArray
  := by
  rw [lineStarts, cut.bytes, List.append_assoc, behindLineFeeds_append, Nat.zero_add]
  rfl

/-- An offset behind the end counts as the end. -/
theorem min_offset (cut : Cut source offset lines head tail past) :
  min offset source.data.size = (lines ++ head).length
  := by
  rw [← cut.before, List.length_take, Array.length_toList]
  rfl

/-- Bisection counts the lines that begin at or before the offset. -/
theorem bisect_starts (cut : Cut source offset lines head tail past) :
  bisect (fun i => source.lineStarts[i]?.any (· ≤ min offset source.data.size)) 0
      source.lineStarts.size
    = (lines ++ head).count lineFeed + 1
  := by
  rw [cut.lineStarts_eq, cut.min_offset, bisect_append]
  · rw [List.length_cons, length_behindLineFeeds]
  · refine List.forall_mem_cons.mpr ⟨Nat.zero_le _, fun x hx => ?_⟩
    have := mem_behindLineFeeds hx
    omega
  · intro x hx
    apply (mem_behindLineFeeds hx).1

/-- The last line that begins at or before the offset begins behind `lines`. -/
theorem start (cut : Cut source offset lines head tail past) :
  source.lineStarts[(lines ++ head).count lineFeed]? = some lines.length
  := by
  have inHead : behindLineFeeds (0 + lines.length) head = [] :=
    behindLineFeeds_eq_nil fun inside => cut.line (List.mem_append_left _ inside)
  have within : (behindLineFeeds 0 (lines ++ head)).length
      < (0 :: behindLineFeeds 0 (lines ++ head)).length := Nat.lt_succ_self _
  rw [cut.lineStarts_eq, List.getElem?_toArray, ← length_behindLineFeeds 0,
    List.getElem?_append_left within, behindLineFeeds_append, inHead, List.append_nil]
  rcases cut.opens with rfl | ⟨more, rfl⟩
  · rfl
  · have last : behindLineFeeds (0 + more.length) [lineFeed] = [0 + more.length + 1] := rfl
    rw [behindLineFeeds_append, last]
    simp

/-- The line ends behind its line feed or with the file. -/
theorem stop (cut : Cut source offset lines head tail past) :
  source.lineStarts[(lines ++ head).count lineFeed + 1]?.getD source.data.size
    = lines.length + (head ++ tail ++ past.take 1).length
  := by
  have inTail : behindLineFeeds (lines ++ head).length tail = [] :=
    behindLineFeeds_eq_nil fun inside => cut.line (List.mem_append_right _ inside)
  rw [cut.lineStarts_eq, List.getElem?_toArray, ← length_behindLineFeeds 0, ← List.length_cons,
    List.getElem?_append_right (Nat.le_refl _), Nat.sub_self, behindLineFeeds_append, inTail,
    List.nil_append]
  rcases cut.closes with rfl | ⟨more, rfl⟩
  · have size : source.data.size = (lines ++ head ++ tail ++ []).length := by
      rw [← cut.bytes, Array.length_toList]
      rfl
    rw [size]
    simp [behindLineFeeds, Nat.add_assoc]
  · have first : behindLineFeeds ((lines ++ head).length + tail.length) (lineFeed :: more)
        = [(lines ++ head).length + tail.length + 1] ++ behindLineFeeds _ more :=
      behindLineFeeds_append _ [lineFeed] more
    rw [first]
    simp [Nat.add_assoc]

/-- The head of a line is cut out without a fault. -/
theorem slice_head (cut : Cut source offset lines head tail past) :
  source.slice lines.length (min offset source.data.size)
    = .ok (String.ofList (Text.decodeLossy head))
  := by
  rw [cut.min_offset, List.length_append]
  exact slice_append (c := tail ++ past) (by rw [cut.bytes, List.append_assoc])

/-- The line with its line feed is cut out without a fault. -/
theorem slice_line (cut : Cut source offset lines head tail past) :
  source.slice lines.length (lines.length + (head ++ tail ++ past.take 1).length)
    = .ok (String.ofList (Text.decodeLossy (head ++ tail ++ past.take 1)))
  := by
  apply slice_append (c := past.drop 1)
  rw [cut.bytes, ← List.append_assoc lines, List.append_assoc _ (past.take 1),
    List.take_append_drop, List.append_assoc lines head tail]

/-- The line has one line feed, at its end, or none. -/
theorem trimEnd_line (cut : Cut source offset lines head tail past) :
  Text.trimEnd '\n' (Text.decodeLossy (head ++ tail ++ past.take 1))
    = Text.decodeLossy (head ++ tail)
  := by
  have kept := Text.trimEnd_of_not_mem (Text.not_mem_decodeLossy cut.line)
  rcases cut.closes with rfl | ⟨more, rfl⟩
  · rw [List.take_nil, List.append_nil, kept]
  · rw [List.take_succ_cons, List.take_zero, Text.decodeLossy_concat, Text.trimEnd_concat, kept]

end Cut

/-- Where the byte at `offset` is, as the bytes around it show; an offset past the end means the
end. -/
def lineAt (source : Source) (offset : Nat) : LineInfo :=
  let bytes := source.data.data.toList
  let before := bytes.take offset
  let head := (before.reverse.takeWhile (· != lineFeed)).reverse
  let tail := (bytes.drop offset).takeWhile (· != lineFeed)
  let text := Text.decodeLossy (head ++ tail)
  { line := before.count lineFeed + 1
    column := (Text.decodeLossy head).length + 1
    text := String.ofList (text.reverse.dropWhile (· == '\r')).reverse }

/-- The table of lines leads to the place that the bytes themselves show. -/
theorem lineInfo_eq (source : Source) (offset : Nat) :
  source.lineInfo offset = .ok (source.lineAt offset)
  := by
  obtain ⟨lines, past, cut⟩ := exists_cut source offset
  have place : source.lineAt offset = {
      line := (source.data.data.toList.take offset).count lineFeed + 1
      column := (Text.decodeLossy
        (lastPart lineFeed (source.data.data.toList.take offset))).length + 1
      text := String.ofList (Text.trimEnd '\r' (Text.decodeLossy
        (lastPart lineFeed (source.data.data.toList.take offset)
          ++ (source.data.data.toList.drop offset).takeWhile (· != lineFeed)))) } := rfl
  rw [place]
  -- only what the cut says of its parts matters from here on
  revert cut
  generalize lastPart lineFeed (source.data.data.toList.take offset) = head
  generalize (source.data.data.toList.drop offset).takeWhile (· != lineFeed) = tail
  intro cut
  rw [lineInfo]
  simp only [cut.bisect_starts, Nat.add_sub_cancel, cut.start]
  rw [cut.slice_head, cut.stop, cut.slice_line, cut.before]
  change Except.ok (LineInfo.mk _ _ _) = _
  rw [String.length_ofList, String.toList_ofList, cut.trimEnd_line]

/-! ### Character boundaries -/

/-- The byte of a line feed occurs in no other character. -/
theorem lineFeed_mem_utf8Encode {text : List Char} :
  lineFeed ∈ text.utf8Encode.data.toList ↔ '\n' ∈ text
  := by
  rw [List.utf8Encode, List.toList_data_toByteArray, List.mem_flatMap]
  constructor
  · rintro ⟨c, hc, inside⟩
    rwa [Text.lineFeed_mem_utf8EncodeChar.mp inside] at hc
  · intro hc
    use '\n', hc
    apply Text.lineFeed_mem_utf8EncodeChar.mpr rfl

/-- The bytes of two texts are those of one behind the other. -/
theorem toList_utf8Encode_append (xs ys : List Char) :
  (xs ++ ys).utf8Encode.data.toList = xs.utf8Encode.data.toList ++ ys.utf8Encode.data.toList
  := by
  rw [List.utf8Encode_append, ByteArray.data_append, Array.toList_append]

/-- The last line of an encoded text is the encoding of its last line. -/
theorem lastPart_utf8Encode (text : List Char) :
  lastPart lineFeed text.utf8Encode.data.toList = (lastPart '\n' text).utf8Encode.data.toList
  := by
  obtain ⟨front, whole, absent, opens⟩ := exists_lastPart '\n' text
  have ended : lastPart lineFeed front.utf8Encode.data.toList = [] := by
    rcases opens with rfl | ⟨more, rfl⟩
    · rfl
    · rw [toList_utf8Encode_append]
      apply lastPart_concat
  have apart := mt lineFeed_mem_utf8Encode.mp absent
  calc lastPart lineFeed text.utf8Encode.data.toList
    _ = lastPart lineFeed (front ++ lastPart '\n' text).utf8Encode.data.toList := by rw [← whole]
    _ = (lastPart '\n' text).utf8Encode.data.toList := by
      rw [toList_utf8Encode_append, lastPart_append _ apart, ended, List.nil_append]

section

variable {source : Source} {text before later : List Char}

/-- The bytes before a boundary are those of the characters before it. -/
theorem take_of_before (valid : source.data = text.utf8Encode) (h : before <+: text) :
  source.data.data.toList.take (textSize before) = before.utf8Encode.data.toList
  := by
  obtain ⟨rest, rfl⟩ := h
  have size : textSize before = before.utf8Encode.data.toList.length := by
    rw [Array.length_toList]
    apply (charactersFrom_zero_eq_iff.mpr rfl).2
  rw [valid, toList_utf8Encode_append, size, List.take_left]

/-- What the table of lines says at a character boundary. -/
theorem lineInfo_of_before (valid : source.data = text.utf8Encode) (h : before <+: text) :
  ∃ line, source.lineInfo (textSize before) = .ok {
    line := 1 + (source.data.data.toList.take (textSize before)).count lineFeed
    column := 1 + (lastPart '\n' before).length
    text := line }
  := by
  have column : Text.decodeLossy
        (lastPart lineFeed (source.data.data.toList.take (textSize before)))
      = lastPart '\n' before := by
    rw [take_of_before valid h, lastPart_utf8Encode, Text.decodeLossy_utf8Encode]
  use (source.lineAt (textSize before)).text
  rw [lineInfo_eq, ← column, Nat.add_comm 1, Nat.add_comm 1]
  rfl

/-- Of two boundaries one stands before the other. -/
theorem exists_between (h : before <+: text) (h' : later <+: text)
    (less : textSize before < textSize later) :
  ∃ c more, later = before ++ c :: more
  := by
  rcases List.prefix_or_prefix_of_prefix h h' with ⟨between, rfl⟩ | ⟨between, rfl⟩
  · cases between with
    | nil => exact absurd less (by rw [List.append_nil]; exact Nat.lt_irrefl _)
    | cons c more =>
      use c, more
  · rw [textSize_append] at less
    omega

/-- Behind more characters the line is later, or it is the same and the column is later. -/
theorem lexicographic_append (before : List Char) (c : Char) (more : List Char) :
  before.utf8Encode.data.toList.count lineFeed
      < (before ++ c :: more).utf8Encode.data.toList.count lineFeed
    ∨ before.utf8Encode.data.toList.count lineFeed
        = (before ++ c :: more).utf8Encode.data.toList.count lineFeed
      ∧ (lastPart '\n' before).length < (lastPart '\n' (before ++ c :: more)).length
  := by
  rw [toList_utf8Encode_append, List.count_append]
  by_cases inside : '\n' ∈ c :: more
  · have := List.count_pos_iff.mpr (lineFeed_mem_utf8Encode.mpr inside)
    omega
  · have apart := mt lineFeed_mem_utf8Encode.mp inside
    rw [List.count_eq_zero_of_not_mem apart, lastPart_append _ inside, List.length_append,
      List.length_cons]
    omega

/-- In a file of valid UTF-8 line and column identify a position.  At the boundary behind any
characters the line counts the line feeds before it, and the column the characters since the last
line feed.  From a boundary to a later one the line grows, or it stays and the column grows, so
that no two boundaries share both. -/
theorem lineInfo_boundaries (valid : source.data = text.utf8Encode) :
  (∀ before, before <+: text → ∃ line, source.lineInfo (textSize before) = .ok {
    line := 1 + (source.data.data.toList.take (textSize before)).count lineFeed
    column := 1 + (lastPart '\n' before).length
    text := line })
  ∧ ∀ before later, before <+: text → later <+: text → ∃ info info',
    source.lineInfo (textSize before) = .ok info ∧ source.lineInfo (textSize later) = .ok info'
    ∧ (textSize before < textSize later →
        info.line < info'.line ∨ info.line = info'.line ∧ info.column < info'.column)
    ∧ (info.line = info'.line → info.column = info'.column → textSize before = textSize later)
  := by
  constructor
  · intro before h
    apply lineInfo_of_before valid h
  intro before later h h'
  obtain ⟨line, found⟩ := lineInfo_of_before valid h
  obtain ⟨line', found'⟩ := lineInfo_of_before valid h'
  refine ⟨_, _, found, found', ?_, ?_⟩ <;> rw [take_of_before valid h, take_of_before valid h']
  · intro less
    obtain ⟨c, more, rfl⟩ := exists_between h h' less
    have := lexicographic_append before c more
    dsimp only
    omega
  · dsimp only
    intro sameLine sameColumn
    rcases Nat.lt_trichotomy (textSize before) (textSize later) with less | same | less
    · obtain ⟨c, more, rfl⟩ := exists_between h h' less
      have := lexicographic_append before c more
      omega
    · apply same
    · obtain ⟨c, more, rfl⟩ := exists_between h' h less
      have := lexicographic_append later c more
      omega

end

/-- A line feed, a character of two bytes and an empty last line. -/
def accented : List Char := "a\né\n".toList

theorem lineInfo_boundaries_accented :
  (∃ line, lineInfo ⟨"notes", accented.utf8Encode⟩ 4 = .ok ⟨2, 2, line⟩)
  ∧ ∃ line, lineInfo ⟨"notes", accented.utf8Encode⟩ 5 = .ok ⟨3, 1, line⟩
  := by
  have valid : (Source.mk "notes" accented.utf8Encode).data = accented.utf8Encode := rfl
  have places := (lineInfo_boundaries valid).1
  constructor
  · apply places ['a', '\n', 'é'] (by decide)
  · apply places accented (List.prefix_refl _)

end Source

end PoolGraph
