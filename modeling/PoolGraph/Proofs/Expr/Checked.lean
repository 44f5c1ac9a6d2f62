import PoolGraph.Proofs.Except
import PoolGraph.Proofs.Expr.Parse
import PoolGraph.Proofs.Source.Slices

/-!
# The parser with its checks

`CheckedParser` counts the levels that are open and takes the texts of tokens as slices of the file,
so that a level too many that is closed, or an offset out of order, is a fault.  The grammar read
with these checks meets none and gives what `Expr.parse` gives (`Expr.parseChecked_eq`).
-/

namespace PoolGraph

/-- A computation that moves a cursor and counts levels, and may fail or meet a fault. -/
abbrev CheckedParser := OptionT (StateT (Progress × Nesting) (Except Fault))

namespace CheckedParser

/-! ### The grammar -/

/-- A parser that opens no level and takes no text. -/
def lift (p : Parser α) : CheckedParser α :=
  OptionT.mk fun (s, n) => .ok ((Parser.outcome p s).1, (Parser.outcome p s).2, n)

/-- What `p` gives, or nothing when it fails; then the cursor is where it was before. -/
def attempt (p : CheckedParser α) : CheckedParser (Option α) :=
  OptionT.mk fun (s, n) => do
    match ← p.run (s, n) with
    | (some x, after) => return (some (some x), after)
    | (none, s', n') => return (some none, s'.recover s.cursor, n')

/-- The results of `p` behind those that stand in `before` in reverse, until `p` fails or was
applied as often as the first argument says. -/
def manyWithin (p : CheckedParser α) : Nat → List α → CheckedParser (List α)
  | 0, before => pure before.reverse
  | more + 1, before => do
    match ← attempt p with
    | some x => manyWithin p more (x :: before)
    | none => pure before.reverse

/-- The results of `p` until it fails. -/
def many (p : CheckedParser α) : CheckedParser (List α) := do
  manyWithin p ((← lift Parser.cursor).rest.length + 1) []

/-- The token between an earlier cursor and the current one, with the slice of the file between
them. -/
def tokenFrom (source : Source) (file : Nat) (start : Cursor) : CheckedParser Token :=
  OptionT.mk fun (s, n) => do
    let text ← source.slice start.offset s.cursor.offset
    return (some ⟨⟨file, start.offset, s.cursor.offset⟩, text⟩, s, n)

/-- What `p` gives one level deeper. -/
def nested (p : CheckedParser α) : CheckedParser α :=
  OptionT.mk fun (s, n) =>
    match n.enter s with
    | (true, n, s) => do
      let (x?, s, n) ← p.run (s, n)
      return (x?, s, ← n.leave)
    | (false, n, s) => return (none, s, n)

/-- What must never be run. -/
def unreachable : CheckedParser α :=
  OptionT.mk fun _ => .error .notNested

variable (source : Source) (file : Nat)

/-- A name: a letter or an underscore, then letters, digits and underscores. -/
def name : CheckedParser Token := do
  let start ← lift Parser.cursor
  if start.peek?.any isNameStart then
    let _ ← lift (Parser.takeWhile isNamePart)
    tokenFrom source file start
  else failure

/-- Items between commas, perhaps none; after the last item there may be one more comma. -/
def commaSeparated (item : CheckedParser α) : CheckedParser (List α) := do
  let items? ← attempt do
    let first ← item
    let rest ← many do
      lift Parser.blanks
      lift (Parser.char ',')
      lift Parser.blanks
      item
    let _ ← lift (Parser.attempt do
      Parser.blanks
      Parser.char ',')
    return first :: rest
  return items?.getD []

/-- A string literal. -/
def string : CheckedParser Expr := do
  let start ← lift Parser.cursor
  lift (Parser.char '"')
  let inside ← lift Parser.cursor
  let (value?, after) := Parser.quoted inside.offset [] inside.rest
  lift (Parser.moveTo after)
  match value? with
  | some value => return .string (← tokenFrom source file start) value
  | none => failure

/-- One of the words for truth values. -/
def truthValue : CheckedParser Expr := do
  let token ← name source file
  if token.text = "true" then return .bool token.span true
  else if token.text = "false" then return .bool token.span false
  else failure

/-- A run of digits, which may be empty. -/
def digits : CheckedParser Expr := do
  let start ← lift Parser.cursor
  let _ ← lift (Parser.takeWhile isDigit)
  return .integer (← tokenFrom source file start)

/-- A named argument of a struct. -/
def argument (value : CheckedParser Expr) : CheckedParser (Token × Expr) := do
  let key ← name source file
  lift Parser.blanks
  lift (Parser.char ':')
  lift Parser.blanks
  return (key, ← value)

/-- A struct, with or without a type name, whose arguments are read by `value`. -/
def struct (value : CheckedParser Expr) : CheckedParser Expr := do
  let type? ← do
    if (← lift Parser.cursor).peek?.any isNameStart then
      let type ← name source file
      lift Parser.blanks
      pure (some type)
    else pure none
  let brace ← lift (Parser.opening file '{')
  lift Parser.blanks
  let arguments ← commaSeparated (argument source file value)
  lift Parser.blanks
  lift (Parser.char '}')
  return .struct type? brace arguments

/-- A list whose items are read by `value`. -/
def list (value : CheckedParser Expr) : CheckedParser Expr := do
  let bracket ← lift (Parser.opening file '[')
  lift Parser.blanks
  let items ← commaSeparated value
  lift Parser.blanks
  lift (Parser.char ']')
  return .list bracket items

/-- An expression, chosen by its first character; `struct` and `list` read what opens a
level. -/
def expression (struct list : CheckedParser Expr) : CheckedParser Expr := do
  let start ← lift Parser.cursor
  match start.peek? with
  | none => failure
  | some c =>
    if isDigit c then digits source file
    else if isNameStart c then
      match ← attempt (truthValue source file) with
      | some e => return e
      | none => struct
    else if c = '{' then struct
    else if c = '"' then string source file
    else if c = '[' then list
    else failure

/-- An expression.  When as many levels are open as there may be, nothing that opens one is
run. -/
def value : (room : Nat) → CheckedParser Expr
  | 0 => expression source file (nested unreachable) (nested unreachable)
  | room + 1 =>
    let inner := value room
    expression source file (nested (struct source file inner)) (nested (list file inner))

end CheckedParser

/-- The expression that a file consists of, read with all checks. -/
def Expr.parseChecked (file : Nat) (source : Source) : Except Fault (Except Diagnostic Expr) := do
  let whole : CheckedParser Expr := do
    CheckedParser.lift Parser.blanks
    let e ← CheckedParser.value source file maxDepth
    CheckedParser.lift Parser.blanks
    return e
  match ← whole.run (Progress.start source, ⟨0⟩) with
  | (some e, s, _) =>
    if s.cursor.isEnd && s.cursor.offset = source.data.size then return .ok e
    else return .error (Expr.parse.complaint file s)
  | (none, s, _) => return .error (Expr.parse.complaint file s)

/-! ### Parsers that move forward -/

namespace Parser

/-- Whether a parser that succeeds leaves the cursor behind a text that it took. -/
def Forward (p : Parser α) : Prop :=
  ∀ s s' x, outcome p s = (some x, s') → ∃ text, s.cursor.Took text s'.cursor

/-- A parser that reads texts of a grammar only moves forward. -/
theorem Sound.forward {p : Parser α} {R : List Char → Nat → α → Prop} (h : Sound p R) :
  Forward p
  := by
  intro s s' x hrun
  obtain ⟨text, took, -⟩ := h s s' x hrun
  exact ⟨text, took⟩

theorem Forward.pure (x : α) :
  Forward (Pure.pure x)
  := by
  intro s s' y hrun
  obtain ⟨-, rfl⟩ := Prod.mk.inj hrun
  use []
  exact .nil _

/-- Two parsers that move forward, one after the other, move forward. -/
theorem Forward.bind {p : Parser α} {f : α → Parser β} (hp : Forward p)
    (hf : ∀ x, Forward (f x)) :
  Forward (p >>= f)
  := by
  intro s s' y hrun
  obtain ⟨x, s₁, hx, hy⟩ := outcome_bind_eq_some.mp hrun
  obtain ⟨text, took⟩ := hp s s₁ x hx
  obtain ⟨text', took'⟩ := hf x s₁ s' y hy
  use text ++ text'
  apply took.trans took'

theorem forward_char (c : Char) :
  Forward (char c)
  := fun _ _ _ hrun => ⟨[c], took_of_char hrun⟩

/-- Taking characters moves forward, also when it takes none. -/
theorem forward_takeWhile (p : Char → Bool) :
  Forward (takeWhile p)
  := fun _ _ _ hrun => ⟨_, (took_of_takeWhile hrun).1⟩

theorem forward_blanks :
  Forward blanks
  := by
  intro s s' x hrun
  obtain ⟨text, -, took⟩ := took_of_blanks hrun
  exact ⟨text, took⟩

/-- Reading an opening bracket moves forward. -/
theorem forward_opening (file : Nat) (bracket : Char) :
  Forward (opening file bracket)
  := fun _ _ _ hrun => ⟨[bracket], (took_of_opening hrun).1⟩

/-- Cutting out a token leaves the cursor where it is. -/
theorem forward_tokenFrom (file : Nat) (start : Cursor) :
  Forward (tokenFrom file start)
  := by
  intro s s' x hrun
  obtain ⟨-, rfl⟩ := Prod.mk.inj hrun
  use []
  exact .nil _

/-- Reading a name moves forward. -/
theorem forward_name (file : Nat) :
  Forward (name file)
  := by
  intro s s' x hrun
  obtain ⟨text, -, took, -⟩ := took_of_name hrun
  exact ⟨text, took⟩

/-- An attempt moves forward: where it fails it goes back to where it began. -/
theorem Forward.attempt {p : Parser α} (h : Forward p) :
  Forward (attempt p)
  := by
  intro s s' x? hrun
  rcases outcome_attempt_eq_some hrun with ⟨x, -, hsome⟩ | ⟨-, here, -⟩
  · apply h s s' x hsome
  · rw [here]
    use []
    exact .nil _

end Parser

namespace CheckedParser

/-! ### Checks that are passed -/

/-- What a checked parser gives and the state in which it leaves off. -/
def outcome (p : CheckedParser α) (s : Progress) (n : Nesting) :
    Except Fault (Option α × Progress × Nesting) :=
  p.run (s, n)

/-- The second parser runs where the first one stopped, and not at all where it gave up. -/
theorem outcome_bind (p : CheckedParser α) (f : α → CheckedParser β) (s : Progress) (n : Nesting) :
  outcome (p >>= f) s n = outcome p s n >>= fun after => match after with
    | (some x, s', n') => outcome (f x) s' n'
    | (none, s', n') => .ok (none, s', n')
  := by
  unfold outcome
  rw [OptionT.run_bind]
  show (p.run (s, n) >>= _) = _
  apply congrArg (p.run (s, n) >>= ·)
  funext ⟨x?, s', n'⟩
  cases x? <;> rfl

/-- Asking for the cursor changes nothing. -/
theorem outcome_cursor_bind (f : Cursor → CheckedParser α) (s : Progress) (n : Nesting) :
  outcome (lift Parser.cursor >>= f) s n = outcome (f s.cursor) s n
  := by
  rw [outcome_bind]
  rfl

/-- Whether a checked parser, begun at `depth` levels and behind `start`, meets no fault, does what
the other one does and closes the levels that it opens. -/
def Mirrors (source : Source) (depth : Nat) (start : Cursor) (p : CheckedParser α)
    (q : Parser α) : Prop :=
  start.On source → ∀ s text, start.Took text s.cursor →
    outcome p s ⟨depth⟩ = .ok ((Parser.outcome q s).1, (Parser.outcome q s).2, ⟨depth⟩)

namespace Mirrors

variable {source : Source} {depth : Nat} {start : Cursor} {p p' : CheckedParser α}
  {q q' : Parser α}

/-- A parser that checks nothing mirrors itself. -/
theorem lift (q : Parser α) :
  Mirrors source depth start (lift q) q
  := fun _ _ _ _ => rfl

theorem pure (x : α) :
  Mirrors source depth start (Pure.pure x) (Pure.pure x)
  := fun _ _ _ _ => rfl

theorem failure :
  Mirrors source depth start (Alternative.failure : CheckedParser α) Alternative.failure
  := fun _ _ _ _ => rfl

/-- Parsers in sequence mirror parsers in sequence. -/
theorem bind {f : α → CheckedParser β} {g : α → Parser β} (h : Mirrors source depth start p q)
    (forward : Parser.Forward q) (hf : ∀ x, Mirrors source depth start (f x) (g x)) :
  Mirrors source depth start (p >>= f) (q >>= g)
  := by
  intro on s text took
  rw [outcome_bind, h on s text took, Parser.outcome_bind]
  rcases hrun : Parser.outcome q s with ⟨_ | x, s'⟩
  · rfl
  · obtain ⟨t, took'⟩ := forward s s' x hrun
    apply hf x on s' _ (took.trans took')

/-- Behind a look at the cursor everything may be behind that cursor. -/
theorem cursor_bind {f : Cursor → CheckedParser β} {g : Cursor → Parser β}
    (h : ∀ c, Mirrors source depth c (f c) (g c)) :
  Mirrors source depth start (CheckedParser.lift Parser.cursor >>= f) (Parser.cursor >>= g)
  := by
  intro on s text took
  rw [Parser.outcome_cursor_bind, outcome_cursor_bind]
  apply h s.cursor (took.on on) s [] (.nil _)

/-- The branches of a test are mirrored one by one. -/
theorem ite {c : Prop} [Decidable c] (yes : Mirrors source depth start p q)
    (no : Mirrors source depth start p' q') :
  Mirrors source depth start (if c then p else p') (if c then q else q')
  := by
  split
  · apply yes
  · apply no

/-- The slice of a token is cut out between two boundaries, so its check is passed. -/
theorem tokenFrom (file : Nat) :
  Mirrors source depth start (CheckedParser.tokenFrom source file start)
    (Parser.tokenFrom file start)
  := by
  intro on s text took
  show (source.slice start.offset s.cursor.offset >>= _) = _
  rw [took.slice on]
  rfl

/-- Mirroring is kept by an attempt. -/
theorem attempt (h : Mirrors source depth start p q) :
  Mirrors source depth start (attempt p) (Parser.attempt q)
  := by
  intro on s text took
  show (outcome p s ⟨depth⟩ >>= _) = _
  rw [h on s text took, Parser.outcome_attempt]
  rcases Parser.outcome q s with ⟨_ | x, s'⟩ <;> rfl

/-- Mirroring is kept by a loop, whose item starts further on each time. -/
theorem manyWithin (h : Mirrors source depth start p q) (forward : Parser.Forward q) (n : Nat)
    (before : List α) :
  Mirrors source depth start (manyWithin p n before) (Parser.manyWithin q n before)
  := by
  induction n generalizing before with
  | zero => apply pure
  | succ n ih =>
    apply h.attempt.bind forward.attempt
    intro x?
    cases x? with
    | none => apply pure
    | some x => apply ih

/-- A loop is mirrored if its item is, wherever the item starts. -/
theorem many (h : ∀ start, Mirrors source depth start p q) (forward : Parser.Forward q) :
  Mirrors source depth start (many p) (Parser.many q)
  := cursor_bind fun c => (h c).manyWithin forward _ _

/-- A level that may be opened is closed again. -/
theorem nested (h : Mirrors source (depth + 1) start p q) (room : depth < maxDepth) :
  Mirrors source depth start (nested p) q
  := by
  intro on s text took
  have run := h on s text took
  have opens : (Nesting.mk depth).enter s = (true, ⟨depth + 1⟩, s) := if_pos room
  have step : outcome (CheckedParser.nested p) s ⟨depth⟩ = outcome p s ⟨depth + 1⟩ >>= fun after =>
      after.2.2.leave >>= fun n => Pure.pure (after.1, after.2.1, n) := by
    unfold outcome CheckedParser.nested
    show (match (Nesting.mk depth).enter s with
      | (true, n, s) => _
      | (false, n, s) => _) = _
    rw [opens]
  rw [step, run]
  rfl

/-- Where no level may be opened nothing that opens one is run. -/
theorem refuse :
  Mirrors source maxDepth start (CheckedParser.nested p) (Parser.refuse : Parser α)
  := fun _ _ _ _ => rfl

end Mirrors

/-! ### The grammar passes its checks -/

section

variable {source : Source} (file : Nat) {depth : Nat} {start : Cursor}

/-- The check of a name is always passed. -/
theorem mirrors_name :
  Mirrors source depth start (name source file) (Parser.name file)
  := by
  apply Mirrors.cursor_bind
  intro c
  apply Mirrors.ite
  · apply (Mirrors.lift _).bind (Parser.forward_takeWhile _)
    intro _
    apply Mirrors.tokenFrom
  · apply Mirrors.failure

/-- The check of a truth value is always passed. -/
theorem mirrors_truthValue :
  Mirrors source depth start (truthValue source file) (Parser.truthValue file)
  := by
  apply (mirrors_name file).bind (Parser.forward_name file)
  intro token
  apply Mirrors.ite
  · apply Mirrors.pure
  · apply Mirrors.ite
    · apply Mirrors.pure
    · apply Mirrors.failure

/-- The check of an integer is always passed. -/
theorem mirrors_digits :
  Mirrors source depth start (digits source file) (Parser.digits file)
  := by
  apply Mirrors.cursor_bind
  intro c
  apply (Mirrors.lift _).bind (Parser.forward_takeWhile _)
  intro _
  apply (Mirrors.tokenFrom file).bind (Parser.forward_tokenFrom file c)
  intro token
  apply Mirrors.pure

/-- What stands between quotes is behind the opening one, so the token of a string is in order. -/
theorem mirrors_string :
  Mirrors source depth start (string source file) (Parser.string file)
  := by
  apply Mirrors.cursor_bind
  intro c
  apply (Mirrors.lift _).bind (Parser.forward_char _)
  intro _ on s text took
  rw [Parser.outcome_cursor_bind, outcome_cursor_bind]
  rcases hq : Parser.quoted s.cursor.offset [] s.cursor.rest with ⟨value?, after⟩
  rw [outcome_bind, Parser.outcome_bind]
  cases value? with
  | none => rfl
  | some value =>
    obtain ⟨inner, -, -, hrest, hoffset, -⟩ := Parser.took_of_quoted hq
    have behind : s.cursor.Took (inner ++ ['"']) after := by
      constructor
      · rw [hrest, List.append_assoc]
        rfl
      · rw [hoffset, textSize_append]
        rfl
    have token : Mirrors source depth c
        (do return Expr.string (← tokenFrom source file c) value)
        (do return Expr.string (← Parser.tokenFrom file c) value) :=
      (Mirrors.tokenFrom file).bind (Parser.forward_tokenFrom file c) fun _ => Mirrors.pure _
    apply token on { s with cursor := after } _ (took.trans behind)

section

variable {item : CheckedParser α} {item' : Parser α} {R : List Char → Nat → α → Prop}

/-- An item behind a comma passes its checks if the item does. -/
theorem mirrors_following (h : ∀ start, Mirrors source depth start item item') :
  Mirrors source depth start
    (do lift Parser.blanks; lift (Parser.char ','); lift Parser.blanks; item)
    (do Parser.blanks; Parser.char ','; Parser.blanks; item')
  := by
  apply (Mirrors.lift _).bind Parser.forward_blanks
  intro _
  apply (Mirrors.lift _).bind (Parser.forward_char _)
  intro _
  apply (Mirrors.lift _).bind Parser.forward_blanks
  intro _
  apply h

/-- Items between commas pass their checks if each item does. -/
theorem mirrors_commaSeparated (h : ∀ start, Mirrors source depth start item item')
    (sound : Parser.Sound item' R) :
  Mirrors source depth start (commaSeparated item) (Parser.commaSeparated item')
  := by
  have following := (Parser.sound_following sound).forward
  have more := (Parser.sound_many (Parser.sound_following sound)).forward
  have comma : Parser.Forward (Parser.attempt do Parser.blanks; Parser.char ',') :=
    (Parser.forward_blanks.bind fun _ => Parser.forward_char _).attempt
  have items := sound.forward.bind fun first => more.bind fun rest => comma.bind fun _ =>
    Parser.Forward.pure (first :: rest)
  refine Mirrors.bind (Mirrors.attempt ?_) items.attempt fun _ => Mirrors.pure _
  apply (h start).bind sound.forward
  intro first
  apply (Mirrors.many (fun _ => mirrors_following h) following).bind more
  intro rest
  apply (Mirrors.lift _).bind comma
  intro _
  apply Mirrors.pure

/-- Items between brackets, of which `g` makes a tree. -/
theorem mirrors_block (h : ∀ start, Mirrors source depth start item item')
    (sound : Parser.Sound item' R) (first last : Char) (g : Span → List α → β) :
  Mirrors source depth start
    (do
      let bracket ← lift (Parser.opening file first)
      lift Parser.blanks
      let xs ← commaSeparated item
      lift Parser.blanks
      lift (Parser.char last)
      return g bracket xs)
    (do
      let bracket ← Parser.opening file first
      Parser.blanks
      let xs ← Parser.commaSeparated item'
      Parser.blanks
      Parser.char last
      return g bracket xs)
  := by
  apply (Mirrors.lift _).bind (Parser.forward_opening _ _)
  intro bracket
  apply (Mirrors.lift _).bind Parser.forward_blanks
  intro _
  apply (mirrors_commaSeparated h sound).bind (Parser.sound_commaSeparated sound).forward
  intro xs
  apply (Mirrors.lift _).bind Parser.forward_blanks
  intro _
  apply (Mirrors.lift _).bind (Parser.forward_char _)
  intro _
  apply Mirrors.pure

end

section

variable {value : CheckedParser Expr} {value' : Parser Expr} {R : List Char → Nat → Expr → Prop}
  (h : ∀ start, Mirrors source depth start value value') (sound : Parser.Sound value' R)

include h sound

/-- An argument passes its checks if its value does. -/
theorem mirrors_argument :
  Mirrors source depth start (argument source file value) (Parser.argument file value')
  := by
  apply (mirrors_name file).bind (Parser.forward_name file)
  intro key
  apply (Mirrors.lift _).bind Parser.forward_blanks
  intro _
  apply (Mirrors.lift _).bind (Parser.forward_char _)
  intro _
  apply (Mirrors.lift _).bind Parser.forward_blanks
  intro _
  apply (h start).bind sound.forward
  intro e
  apply Mirrors.pure

/-- A struct passes its checks if the values in it do. -/
theorem mirrors_struct :
  Mirrors source depth start (struct source file value) (Parser.struct file value')
  := by
  have argument (start : Cursor) : Mirrors source depth start (argument source file value)
      (Parser.argument file value') := mirrors_argument file h sound
  apply Mirrors.cursor_bind
  intro c
  apply Mirrors.ite
  · apply (mirrors_name file).bind (Parser.forward_name file)
    intro type
    apply (Mirrors.lift _).bind Parser.forward_blanks
    intro _
    apply mirrors_block file argument (Parser.sound_argument sound file)
  · apply mirrors_block file argument (Parser.sound_argument sound file)

/-- A list passes its checks if the items in it do. -/
theorem mirrors_list :
  Mirrors source depth start (list file value) (Parser.list file value')
  := mirrors_block file h sound '[' ']' Expr.list

end

/-- An expression passes its checks if structs and lists do. -/
theorem mirrors_expression {struct list : CheckedParser Expr} {struct' list' : Parser Expr}
    (hstruct : ∀ start, Mirrors source depth start struct struct')
    (hlist : ∀ start, Mirrors source depth start list list') :
  Mirrors source depth start (expression source file struct list)
    (Parser.expression file struct' list')
  := by
  have truth : Parser.Forward (Parser.truthValue file) := by
    intro s s' x hrun
    obtain ⟨b, took, -⟩ := Parser.took_of_truthValue hrun
    exact ⟨_, took⟩
  apply Mirrors.cursor_bind
  intro c
  cases c.peek? with
  | none => apply Mirrors.failure
  | some first =>
    apply Mirrors.ite (mirrors_digits file)
    apply Mirrors.ite
    · apply (mirrors_truthValue file).attempt.bind truth.attempt
      intro truth?
      cases truth? with
      | none => apply hstruct
      | some e => apply Mirrors.pure
    apply Mirrors.ite (hstruct c)
    apply Mirrors.ite (mirrors_string file)
    apply Mirrors.ite (hlist c)
    apply Mirrors.failure

/-- Whatever levels are open, there is room for the rest of them. -/
theorem mirrors_value {room : Nat} (h : depth + room = maxDepth) :
  Mirrors source depth start (value source file room) (Parser.value file room)
  := by
  induction room generalizing depth start with
  | zero =>
    obtain rfl : depth = maxDepth := h
    exact mirrors_expression file (fun _ => Mirrors.refuse) fun _ => Mirrors.refuse
  | succ room ih =>
    have inner (start : Cursor) : Mirrors source (depth + 1) start (value source file room)
        (Parser.value file room) := ih (by omega)
    have sound := Parser.sound_value file room
    apply mirrors_expression file
    · intro start
      apply (mirrors_struct file inner sound).nested (by omega)
    · intro start
      apply (mirrors_list file inner sound).nested (by omega)

end

end CheckedParser

/-- Reading a file with all checks meets no fault: every level that is closed was opened, every token
is a slice of the file, and what is read is what is read without them. -/
theorem Expr.parseChecked_eq (file : Nat) (source : Source) :
  Expr.parseChecked file source = .ok (Expr.parse file source)
  := by
  have mirrored : CheckedParser.Mirrors source 0 (Progress.start source).cursor
      (do
        CheckedParser.lift Parser.blanks
        let e ← CheckedParser.value source file maxDepth
        CheckedParser.lift Parser.blanks
        return e)
      (Parser.document file maxDepth) := by
    apply (CheckedParser.Mirrors.lift _).bind Parser.forward_blanks
    intro _
    apply (CheckedParser.mirrors_value file (Nat.zero_add _)).bind (Parser.sound_value file _).forward
    intro e
    apply (CheckedParser.Mirrors.lift _).bind Parser.forward_blanks
    intro _
    apply CheckedParser.Mirrors.pure
  have run := mirrored (Cursor.on_start source) (Progress.start source) [] (.nil _)
  apply Except.bind_eq_ok.mpr
  refine ⟨_, run, ?_⟩
  rw [Expr.parse_eq_document]
  rcases Parser.outcome (Parser.document file maxDepth) (Progress.start source) with ⟨_ | e, s⟩
  · rfl
  · dsimp only
    split <;> rfl

end PoolGraph
