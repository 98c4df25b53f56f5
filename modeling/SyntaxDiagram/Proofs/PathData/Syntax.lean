import SyntaxDiagram.Proofs.PathData.Number

/-!
# The syntax of path data

Path data are commands, each a letter and its arguments.  A letter may be left out if it is that of
the command in front, and so may the separators if the numbers still end where they should
(`PathData.ReadsCommands`).  What comes next is told by the first character that is no blank, so a
text is read as path data in at most one way (`PathData.Reads.unique`).  A path is followed with a
pen, command by command (`PathData.follow`).
-/

namespace SyntaxDiagram

namespace PathData

/-! ### Commands -/

/-- What an argument of a command is. A flag is a single digit, `0` or `1`. -/
inductive ArgumentKind where
  | number
  | flag
  deriving DecidableEq, Repr

/-- A command of a path. -/
structure Command where
  letter : Char
  arguments : List ℚ
  deriving DecidableEq

/-- The arguments that a command takes. The radii of an arc may have a sign, which has no
meaning. -/
def argumentKinds? : Char → Option (List ArgumentKind)
  | 'M' | 'm' | 'L' | 'l' | 'T' | 't' => some [.number, .number]
  | 'H' | 'h' | 'V' | 'v' => some [.number]
  | 'C' | 'c' => some [.number, .number, .number, .number, .number, .number]
  | 'S' | 's' | 'Q' | 'q' => some [.number, .number, .number, .number]
  | 'A' | 'a' => some [.number, .number, .number, .flag, .flag, .number, .number]
  | 'Z' | 'z' => some []
  | _ => none

/-- The letter of a command whose letter is left out behind that of another one. Pairs of
coordinates behind those of a move are those of lines. -/
def impliedLetter : Char → Char
  | 'M' => 'L'
  | 'm' => 'l'
  | letter => letter

/-! ### Separators -/

/-- Whether a character separates the parts of path data. -/
def isSpace (c : Char) : Bool :=
  c == ' ' || c == '\t' || c == '\n' || c == '\x0c' || c == '\r'

/-- The text behind blanks. -/
def skipSpace (text : List Char) : List Char :=
  text.dropWhile isSpace

/-- The text behind blanks with a comma among them, or without one. -/
def skipSeparator (text : List Char) : List Char :=
  match skipSpace text with
  | ',' :: rest => skipSpace rest
  | rest => rest

theorem skipSpace_cons {c : Char} (hc : isSpace c = false) (text : List Char) :
    skipSpace (c :: text) = c :: text := by
  rw [skipSpace, List.dropWhile_cons, hc, if_neg Bool.false_ne_true]

theorem skipSeparator_of_skipSpace {text rest : List Char} {c : Char}
    (htext : skipSpace text = c :: rest) (hc : c ≠ ',') : skipSeparator text = c :: rest := by
  unfold skipSeparator
  rw [htext]
  split
  · rename_i heq
    exact absurd (List.cons.inj heq).1 hc
  · rfl

theorem skipSeparator_eq_nil {text : List Char} (h : skipSpace text = []) :
    skipSeparator text = [] := by
  rw [skipSeparator, h]

/-! ### The grammar -/

/-- A text begins with an argument. -/
inductive ReadsArgument : ArgumentKind → List Char → ℚ → List Char → Prop where
  | number {text rest : List Char} {value : ℚ} (h : ReadsNumber text value rest) :
    ReadsArgument .number text value rest
  | off {rest : List Char} : ReadsArgument .flag ('0' :: rest) 0 rest
  | on {rest : List Char} : ReadsArgument .flag ('1' :: rest) 1 rest

/-- A text begins with some arguments. What may stand in front of the first one is skipped in a way
of its own. -/
inductive ReadsArguments :
    (List Char → List Char) → List ArgumentKind → List Char → List ℚ → List Char → Prop where
  | nil {skip : List Char → List Char} {text : List Char} : ReadsArguments skip [] text [] text
  | cons {skip : List Char → List Char} {kind : ArgumentKind} {kinds : List ArgumentKind}
    {text next rest : List Char} {value : ℚ} {values : List ℚ}
    (hfirst : ReadsArgument kind (skip text) value next)
    (hothers : ReadsArguments skipSeparator kinds next values rest) :
    ReadsArguments skip (kind :: kinds) text (value :: values) rest

/-- A text is read as commands, behind a command whose letter may be left out. -/
inductive ReadsCommands : Option Char → List Char → List Command → Prop where
  | done {implied : Option Char} {text : List Char} (h : skipSpace text = []) :
    ReadsCommands implied text []
  | letter {implied : Option Char} {letter : Char} {text next rest : List Char}
    {kinds : List ArgumentKind} {values : List ℚ} {commands : List Command}
    (htext : skipSpace text = letter :: next) (hkinds : argumentKinds? letter = some kinds)
    (harguments : ReadsArguments skipSpace kinds next values rest)
    (hothers : ReadsCommands (some (impliedLetter letter)) rest commands) :
    ReadsCommands implied text (⟨letter, values⟩ :: commands)
  | again {letter : Char} {text rest : List Char} {kind : ArgumentKind}
    {kinds : List ArgumentKind} {values : List ℚ} {commands : List Command}
    (hkinds : argumentKinds? letter = some (kind :: kinds))
    (harguments : ReadsArguments skipSeparator (kind :: kinds) text values rest)
    (hothers : ReadsCommands (some letter) rest commands) :
    ReadsCommands (some letter) text (⟨letter, values⟩ :: commands)

/-- A text is read as path data. The first command is a move. -/
def Reads (text : String) (commands : List Command) : Prop :=
  ReadsCommands none text.toList commands ∧
    ∀ command ∈ commands.head?, command.letter = 'M' ∨ command.letter = 'm'

/-! ### Uniqueness -/

/-- No letter of a command is in a number. -/
theorem isNumberChar_of_argumentKinds? {letter : Char} {kinds : List ArgumentKind}
    (h : argumentKinds? letter = some kinds) : isNumberChar letter = false := by
  unfold argumentKinds? at h
  split at h
  all_goals first
    | rfl
    | cases h

theorem ne_comma_of_argumentKinds? {letter : Char} {kinds : List ArgumentKind}
    (h : argumentKinds? letter = some kinds) : letter ≠ ',' := by
  rintro rfl
  cases h

theorem ReadsArgument.exists_cons {kind : ArgumentKind} {text rest : List Char} {value : ℚ}
    (h : ReadsArgument kind text value rest) :
    ∃ c tail, text = c :: tail ∧ isNumberChar c = true := by
  cases h with
  | number h => exact h.exists_cons
  | off => exact ⟨_, _, rfl, rfl⟩
  | on => exact ⟨_, _, rfl, rfl⟩

/-- A text begins with at most one argument of a kind. -/
theorem ReadsArgument.unique {kind : ArgumentKind} {text rest rest' : List Char} {value value' : ℚ}
    (h : ReadsArgument kind text value rest) (h' : ReadsArgument kind text value' rest') :
    value = value' ∧ rest = rest' := by
  cases h with
  | number h =>
    cases h' with
    | number h' => exact h.unique h'
  | off =>
    cases h' with
    | off => exact ⟨rfl, rfl⟩
  | on =>
    cases h' with
    | on => exact ⟨rfl, rfl⟩

/-- A text begins with at most one list of arguments of given kinds. -/
theorem ReadsArguments.unique {skip : List Char → List Char} {kinds : List ArgumentKind}
    {text rest rest' : List Char} {values values' : List ℚ}
    (h : ReadsArguments skip kinds text values rest)
    (h' : ReadsArguments skip kinds text values' rest') : values = values' ∧ rest = rest' := by
  induction h generalizing values' with
  | nil =>
    cases h' with
    | nil => exact ⟨rfl, rfl⟩
  | cons hfirst _ ih =>
    cases h' with
    | cons hfirst' hothers' =>
      obtain ⟨rfl, rfl⟩ := hfirst.unique hfirst'
      obtain ⟨rfl, rfl⟩ := ih hothers'
      exact ⟨rfl, rfl⟩

/-- Arguments begin with a character of a number. -/
theorem ReadsArguments.exists_cons {skip : List Char → List Char} {kind : ArgumentKind}
    {kinds : List ArgumentKind} {text rest : List Char} {values : List ℚ}
    (h : ReadsArguments skip (kind :: kinds) text values rest) :
    ∃ c tail, skip text = c :: tail ∧ isNumberChar c = true := by
  cases h with
  | cons hfirst _ => exact hfirst.exists_cons

/-- What begins with a letter of a command does not begin with arguments. -/
theorem not_readsArguments_of_letter {letter : Char} {kind : ArgumentKind}
    {letterKinds kinds : List ArgumentKind} {text next rest : List Char} {values : List ℚ}
    (htext : skipSpace text = letter :: next) (hkinds : argumentKinds? letter = some letterKinds) :
    ¬ ReadsArguments skipSeparator (kind :: kinds) text values rest := by
  intro h
  obtain ⟨c, tail, hskip, hc⟩ := h.exists_cons
  rw [skipSeparator_of_skipSpace htext (ne_comma_of_argumentKinds? hkinds)] at hskip
  rw [← (List.cons.inj hskip).1, isNumberChar_of_argumentKinds? hkinds] at hc
  exact Bool.false_ne_true hc

/-- What is empty does not begin with arguments. -/
theorem not_readsArguments_of_nil {kind : ArgumentKind} {kinds : List ArgumentKind}
    {text rest : List Char} {values : List ℚ} (htext : skipSpace text = []) :
    ¬ ReadsArguments skipSeparator (kind :: kinds) text values rest := by
  intro h
  obtain ⟨c, tail, hskip, -⟩ := h.exists_cons
  rw [skipSeparator_eq_nil htext] at hskip
  cases hskip

/-- A text is read as at most one list of commands. -/
theorem ReadsCommands.unique {implied : Option Char} {text : List Char} {a b : List Command}
    (ha : ReadsCommands implied text a) (hb : ReadsCommands implied text b) : a = b := by
  -- by what comes next: nothing, a letter, or an argument behind an implied letter
  induction ha generalizing b with
  | done htext =>
    cases hb with
    | done _ => rfl
    | letter htext' _ _ _ =>
      rw [htext] at htext'
      cases htext'
    | again _ harguments _ => exact absurd harguments (not_readsArguments_of_nil htext)
  | letter htext hkinds harguments _ ih =>
    cases hb with
    | done htext' =>
      rw [htext] at htext'
      cases htext'
    | letter htext' hkinds' harguments' hothers' =>
      rw [htext] at htext'
      obtain ⟨rfl, rfl⟩ := List.cons.inj htext'
      rw [hkinds] at hkinds'
      obtain rfl := Option.some.inj hkinds'
      obtain ⟨rfl, rfl⟩ := harguments.unique harguments'
      rw [ih hothers']
    | again _ harguments' _ => exact absurd harguments' (not_readsArguments_of_letter htext hkinds)
  | again hkinds harguments _ ih =>
    cases hb with
    | done htext' => exact absurd harguments (not_readsArguments_of_nil htext')
    | letter htext' hkinds' _ _ =>
      exact absurd harguments (not_readsArguments_of_letter htext' hkinds')
    | again hkinds' harguments' hothers' =>
      rw [hkinds] at hkinds'
      obtain ⟨rfl, rfl⟩ := List.cons.inj (Option.some.inj hkinds')
      obtain ⟨rfl, rfl⟩ := harguments.unique harguments'
      rw [ih hothers']

/-- A text is read as path data in at most one way. -/
theorem Reads.unique {text : String} {a b : List Command} (ha : Reads text a) (hb : Reads text b) :
    a = b :=
  ha.1.unique hb.1

/-! ### Following a path -/

/-- Where a path has come to, and where its current part started. -/
structure Pen where
  start : ℚ × ℚ
  point : ℚ × ℚ

/-- The pen after a command. The arguments of a command with a small letter count from the pen. -/
def Pen.apply (pen : Pen) (command : Command) : Pen :=
  let origin := if command.letter.isLower then pen.point else (0, 0)
  match command.letter.toLower, command.arguments.reverse with
  | 'z', _ => { pen with point := pen.start }
  | 'm', [y, x] => ⟨origin + (x, y), origin + (x, y)⟩
  | 'h', [x] => { pen with point := (origin.1 + x, pen.point.2) }
  | 'v', [y] => { pen with point := (pen.point.1, origin.2 + y) }
  | _, y :: x :: _ => { pen with point := origin + (x, y) }
  | _, _ => pen

/-- Where a path ends. -/
def follow (commands : List Command) : ℚ × ℚ :=
  (commands.foldl Pen.apply ⟨(0, 0), (0, 0)⟩).point

example : follow [⟨'M', [1, 2]⟩, ⟨'h', [3]⟩, ⟨'L', [7, 8]⟩, ⟨'z', []⟩, ⟨'V', [5]⟩] = (1, 5) := by
  decide +kernel

end PathData

end SyntaxDiagram
