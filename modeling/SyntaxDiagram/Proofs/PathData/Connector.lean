import SyntaxDiagram.Connector
import SyntaxDiagram.Proofs.PathData.Syntax

/-!
# The path of a connector

The path data of a connector are read as a move to its start, a command for each of its moves and,
if it ends horizontally, half a unit more (`Connector.reads_pathData`).  Each move is read by itself
whatever follows, since its last number ends in front of the letter of the next one
(`PathData.reads_moves`).  So connectors that start at different points or go on with moves that are
not alike have different path data (`Connector.pathData_eq_iff`).
-/

namespace SyntaxDiagram

open PathData (Command Pen ReadsArguments ReadsCommands EndsNumber skipSpace skipSeparator follow)

/-! ### Commands of moves -/

namespace Move

/-- The path command of a move, with arcs of a given radius. -/
def command (radius : Int) : Move → Command
  | .horizontal distance => ⟨'h', [distance]⟩
  | .vertical distance => ⟨'v', [distance]⟩
  | .arc sweep =>
    ⟨'a', [radius, radius, 0, 0, if sweep.isClockwise then 1 else 0, (sweep.delta radius).1,
      (sweep.delta radius).2]⟩

/-- Two moves are drawn alike: straight ones are the same, and arcs end at the same point and turn
in the same direction. -/
inductive Alike (radius : Int) : Move → Move → Prop where
  | horizontal (distance : Int) : Alike radius (.horizontal distance) (.horizontal distance)
  | vertical (distance : Int) : Alike radius (.vertical distance) (.vertical distance)
  | arc {a b : Sweep} (hdelta : a.delta radius = b.delta radius)
    (hturn : a.isClockwise = b.isClockwise) : Alike radius (.arc a) (.arc b)

/-- A pen goes as far as the move. -/
theorem apply_command (radius : Int) (move : Move) (pen : Pen) :
    (pen.apply (move.command radius)).point =
      pen.point + (((move.delta radius).1 : ℚ), ((move.delta radius).2 : ℚ)) := by
  cases move with
  | horizontal distance => exact Prod.ext rfl (add_zero _).symm
  | vertical distance => exact Prod.ext (add_zero _).symm rfl
  | arc sweep => rfl

/-- Half a unit to the right is not the command of a move. -/
theorem command_ne_half (radius : Int) (move : Move) : move.command radius ≠ ⟨'h', [1 / 2]⟩ := by
  cases move with
  | horizontal distance =>
    intro h
    have hhalf : (distance : ℚ) = 1 / 2 := (List.cons.inj (Command.mk.inj h).2).1
    have hone : ((2 * distance : Int) : ℚ) = (1 : Int) := by
      push_cast
      linarith
    have hint := Int.cast_injective hone
    omega
  | vertical distance => simp [command]
  | arc sweep => simp [command]

theorem alike_of_command_eq {radius : Int} {a b : Move} (h : a.command radius = b.command radius) :
    Alike radius a b := by
  have hletter : (a.command radius).letter = (b.command radius).letter := congrArg _ h
  have harguments := congrArg Command.arguments h
  cases a with
  | horizontal distance =>
    cases b with
    | horizontal other =>
      obtain rfl := Int.cast_injective (List.cons.inj harguments).1
      exact .horizontal distance
    | vertical _ => exact absurd hletter (by decide : 'h' ≠ 'v')
    | arc _ => exact absurd hletter (by decide : 'h' ≠ 'a')
  | vertical distance =>
    cases b with
    | horizontal _ => exact absurd hletter (by decide : 'v' ≠ 'h')
    | vertical other =>
      obtain rfl := Int.cast_injective (List.cons.inj harguments).1
      exact .vertical distance
    | arc _ => exact absurd hletter (by decide : 'v' ≠ 'a')
  | arc sweep =>
    cases b with
    | horizontal _ => exact absurd hletter (by decide : 'a' ≠ 'h')
    | vertical _ => exact absurd hletter (by decide : 'a' ≠ 'v')
    | arc other =>
      simp only [command, List.cons.injEq, Int.cast_inj, true_and, and_true] at harguments
      obtain ⟨hflag, hx, hy⟩ := harguments
      refine .arc (Prod.ext hx hy) ?_
      cases hsweep : sweep.isClockwise <;> cases hother : other.isClockwise <;>
        simp_all

theorem Alike.pathData_eq {radius : Int} {a b : Move} (h : Alike radius a b) :
    a.pathData radius = b.pathData radius ∧ a.isHorizontal = b.isHorizontal := by
  cases h with
  | horizontal distance => exact ⟨rfl, rfl⟩
  | vertical distance => exact ⟨rfl, rfl⟩
  | arc hdelta hturn => exact ⟨by rw [pathData, pathData, hdelta, hturn], rfl⟩

end Move

namespace Connector

/-- The half unit by which a connector is longer if it ends horizontally. -/
def padding (connector : Connector) : List Command :=
  if connector.moves.getLast?.any Move.isHorizontal then [⟨'h', [1 / 2]⟩] else []

/-- The commands of a connector: a move to its start, and one for each of its moves. -/
def track (radius : Int) (connector : Connector) : List Command :=
  ⟨'M', [connector.x, connector.y]⟩ :: connector.moves.map (Move.command radius)

end Connector

/-! ### Reading arguments -/

namespace PathData

theorem skipSpace_of_isNumberChar {c : Char} (hc : isNumberChar c = true) (text : List Char) :
    skipSpace (c :: text) = c :: text := by
  refine skipSpace_cons ?_ text
  by_contra hspace
  rw [Bool.not_eq_false, isSpace] at hspace
  simp only [Bool.or_eq_true, beq_iff_eq] at hspace
  obtain (((rfl | rfl) | rfl) | rfl) | rfl := hspace
  all_goals exact absurd hc (by decide)

/-- Skips in front of the text of an integer. -/
theorem skip_toString (n : Int) (rest : List Char) :
    skipSpace ((toString n).toList ++ rest) = (toString n).toList ++ rest ∧
      skipSeparator (' ' :: ((toString n).toList ++ rest)) = (toString n).toList ++ rest := by
  have hnumber := isNumber_toString n
  obtain ⟨c, tail, hc⟩ := List.exists_cons_of_ne_nil hnumber.ne_nil
  have hchar : isNumberChar c = true :=
    hnumber.isNumberChar c (hc ▸ List.mem_cons_self ..)
  have hcomma : c ≠ ',' := by
    rintro rfl
    exact absurd hchar (by decide)
  have hskip := skipSpace_of_isNumberChar hchar (tail ++ rest)
  rw [hc]
  exact ⟨hskip, skipSeparator_of_skipSpace hskip hcomma⟩

section

variable {kinds : List ArgumentKind} {next rest : List Char} {values : List ℚ}
  (hends : EndsNumber next) (hothers : ReadsArguments skipSeparator kinds next values rest)

include hends hothers

/-- An integer behind a letter is read as a number. -/
theorem readsArguments_first (n : Int) :
    ReadsArguments skipSpace (.number :: kinds) ((toString n).toList ++ next) ((n : ℚ) :: values)
      rest := by
  refine .cons (.number ?_) hothers
  rw [(skip_toString n next).1]
  exact (isNumber_toString n).reads hends

/-- An integer behind a blank is read as a number. -/
theorem readsArguments_number (n : Int) :
    ReadsArguments skipSeparator (.number :: kinds) (' ' :: ((toString n).toList ++ next))
      ((n : ℚ) :: values) rest := by
  refine .cons (.number ?_) hothers
  rw [(skip_toString n next).2]
  exact (isNumber_toString n).reads hends

end

theorem readsArguments_flag {kinds : List ArgumentKind} {next rest : List Char} {values : List ℚ}
    (hothers : ReadsArguments skipSeparator kinds next values rest) (flag : Bool) :
    ReadsArguments skipSeparator (.flag :: kinds)
      (' ' :: ((if flag then "1" else "0").toList ++ next)) ((if flag then 1 else 0) :: values)
      rest := by
  cases flag with
  | false => exact .cons .off hothers
  | true => exact .cons .on hothers

/-! ### Reading moves -/

/-- A letter with an integer behind it is read as a command. -/
theorem reads_straight {letter : Char} (hspace : isSpace letter = false)
    (hkinds : argumentKinds? letter = some [.number]) {rest : List Char} {commands : List Command}
    (hends : EndsNumber rest) (hothers : ∀ implied, ReadsCommands implied rest commands)
    (distance : Int) (implied : Option Char) :
    ReadsCommands implied (letter :: ((toString distance).toList ++ rest))
      (⟨letter, [(distance : ℚ)]⟩ :: commands) :=
  .letter (skipSpace_cons hspace _) hkinds (readsArguments_first hends .nil distance) (hothers _)

/-- The command of a move is read whatever the command in front. -/
theorem reads_move (radius : Int) (move : Move) {rest : List Char} {commands : List Command}
    (hends : EndsNumber rest) (hothers : ∀ implied, ReadsCommands implied rest commands)
    (implied : Option Char) :
    EndsNumber ((move.pathData radius).toList ++ rest) ∧
      ReadsCommands implied ((move.pathData radius).toList ++ rest)
        (move.command radius :: commands) := by
  cases move with
  | horizontal distance =>
    rw [Move.pathData, String.toList_append]
    exact ⟨endsNumber_cons rfl _, reads_straight rfl rfl hends hothers distance implied⟩
  | vertical distance =>
    rw [Move.pathData, String.toList_append]
    exact ⟨endsNumber_cons rfl _, reads_straight rfl rfl hends hothers distance implied⟩
  | arc sweep =>
    have hblank (text : List Char) : EndsNumber (' ' :: text) := endsNumber_cons rfl text
    -- there is a blank in front of each argument but the first
    have htext : ((Move.arc sweep).pathData radius).toList ++ rest =
        'a' :: ((toString radius).toList ++ ' ' :: ((toString radius).toList ++
          ' ' :: ((toString (0 : Int)).toList ++ ' ' :: ("0".toList ++
            ' ' :: ((if sweep.isClockwise then "1" else "0").toList ++
              ' ' :: ((toString (sweep.delta radius).1).toList ++
                ' ' :: ((toString (sweep.delta radius).2).toList ++ rest))))))) := by
      have hzero : (toString (0 : Int)).toList = ['0'] := rfl
      rw [hzero]
      simp [Move.pathData]
    -- the arguments are read from the last one back to the first
    have hdelta := readsArguments_number (hblank _)
      (readsArguments_number hends .nil (sweep.delta radius).2) (sweep.delta radius).1
    have hflags := readsArguments_flag (readsArguments_flag hdelta sweep.isClockwise) false
    have harguments := readsArguments_first (hblank _) (readsArguments_number (hblank _)
      (readsArguments_number (hblank _) hflags 0) radius) radius
    rw [htext]
    exact ⟨endsNumber_cons rfl _, .letter (skipSpace_cons rfl _) rfl harguments (hothers _)⟩

/-- Moves in front of some text are read as their commands. -/
theorem reads_moves (radius : Int) (moves : List Move) {rest : List Char} {commands : List Command}
    (hends : EndsNumber rest) (hothers : ∀ implied, ReadsCommands implied rest commands)
    (implied : Option Char) :
    EndsNumber (moves.flatMap (fun move => (move.pathData radius).toList) ++ rest) ∧
      ReadsCommands implied (moves.flatMap (fun move => (move.pathData radius).toList) ++ rest)
        (moves.map (Move.command radius) ++ commands) := by
  induction moves generalizing implied with
  | nil => exact ⟨hends, hothers implied⟩
  | cons move moves ih =>
    rw [List.flatMap_cons, List.append_assoc]
    exact reads_move radius move (ih none).1 (fun next => (ih next).2) implied

/-- Half a unit at the end is read as a command. -/
theorem reads_half (implied : Option Char) :
    ReadsCommands implied "h.5".toList [⟨'h', [1 / 2]⟩] := by
  have hnumber : IsNumber ['.', '5'] (1 / 2) := by
    have hfive : AllDigits ['5'] := List.forall_mem_singleton.mpr rfl
    have hparts := IsNumber.parts .none
      (.fraction (List.forall_mem_nil _) (List.cons_ne_nil '5' []) hfive) .none
    have hvalue : signed false
        (((Binary64.readDigits ([] ++ ['5']) : Nat) : ℚ) / 10 ^ ['5'].length * 10 ^ (0 : Int)) =
          1 / 2 := by
      show (5 : Nat) / 10 ^ 1 * 10 ^ (0 : Int) = (1 / 2 : ℚ)
      norm_num
    rw [hvalue] at hparts
    exact hparts
  have hreads := hnumber.reads endsNumber_nil
  exact .letter (skipSpace_cons rfl _) rfl (.cons (.number hreads) .nil) (.done rfl)

end PathData

/-! ### Connectors -/

namespace Connector

theorem toList_pathData (radius : Int) (connector : Connector) :
    (connector.pathData radius).toList =
      'M' :: ((toString connector.x).toList ++ ' ' :: ((toString connector.y).toList ++
        (connector.moves.flatMap (fun move => (move.pathData radius).toList) ++
          (if connector.moves.getLast?.any Move.isHorizontal then "h.5" else "").toList))) := by
  simp [pathData, String.toList_join, List.flatMap_map]

/-- The path data of a connector are read as its commands, with the padding behind them. -/
theorem reads_track (radius : Int) (connector : Connector) :
    PathData.Reads (connector.pathData radius) (connector.track radius ++ connector.padding) := by
  refine ⟨?_, ?_⟩
  · have hpadding (implied : Option Char) : ReadsCommands implied
        (if connector.moves.getLast?.any Move.isHorizontal then "h.5" else "").toList
        connector.padding := by
      unfold padding
      split
      · exact PathData.reads_half implied
      · exact .done rfl
    have hends : EndsNumber
        (if connector.moves.getLast?.any Move.isHorizontal then "h.5" else "").toList := by
      split
      · exact PathData.endsNumber_cons rfl _
      · exact PathData.endsNumber_nil
    have hmoves (implied : Option Char) :=
      PathData.reads_moves radius connector.moves hends hpadding implied
    rw [toList_pathData]
    exact .letter (PathData.skipSpace_cons rfl _) rfl
      (PathData.readsArguments_first (PathData.endsNumber_cons rfl _)
        (PathData.readsArguments_number (hmoves none).1 .nil connector.y) connector.x)
      (hmoves _).2
  · intro command hcommand
    rw [← Option.some.inj hcommand]
    exact .inl rfl

/-- A pen that follows the commands of a connector goes where the connector goes. -/
theorem follow_track (radius : Int) (connector : Connector) :
    follow (connector.track radius) =
      (((connector.finish radius).1 : ℚ), ((connector.finish radius).2 : ℚ)) := by
  have hmoves (moves : List Move) (pen : Pen) (point : Point)
      (hpen : pen.point = ((point.1 : ℚ), (point.2 : ℚ))) :
      ((moves.map (Move.command radius)).foldl Pen.apply pen).point =
        (((moves.foldl (Move.apply radius) point).1 : ℚ),
          ((moves.foldl (Move.apply radius) point).2 : ℚ)) := by
    induction moves generalizing pen point with
    | nil => exact hpen
    | cons move moves ih =>
      refine ih _ _ ?_
      rw [Move.apply_command, hpen, Move.apply, Prod.mk_add_mk, Int.cast_add, Int.cast_add]
  refine hmoves connector.moves _ connector.start ?_
  show ((0, 0) : ℚ × ℚ) + ((connector.x : ℚ), (connector.y : ℚ)) = _
  rw [Prod.mk_add_mk, zero_add, zero_add]
  rfl

/-- The commands of the moves can be told from what is behind them. -/
theorem filter_track (radius : Int) (connector : Connector) :
    (connector.moves.map (Move.command radius) ++ connector.padding).filter (· ≠ ⟨'h', [1 / 2]⟩) =
      connector.moves.map (Move.command radius) := by
  have hmoves : (connector.moves.map (Move.command radius)).filter (· ≠ ⟨'h', [1 / 2]⟩) =
      connector.moves.map (Move.command radius) := by
    rw [List.filter_eq_self]
    intro command hcommand
    obtain ⟨move, -, rfl⟩ := List.mem_map.mp hcommand
    exact decide_eq_true (move.command_ne_half radius)
  have hpadding : connector.padding.filter (· ≠ ⟨'h', [1 / 2]⟩) = [] := by
    unfold padding
    split
    · rw [List.filter_cons_of_neg (by simp), List.filter_nil]
    · rfl
  rw [List.filter_append, hmoves, hpadding, List.append_nil]

theorem pathData_eq_of_alike {radius : Int} {a b : Connector} (hstart : a.start = b.start)
    (halike : List.Forall₂ (Move.Alike radius) a.moves b.moves) :
    a.pathData radius = b.pathData radius := by
  have hmap {β : Type} {f : Move → β} (hf : ∀ {x y : Move}, Move.Alike radius x y → f x = f y) :
      a.moves.map f = b.moves.map f := by
    rw [← List.forall₂_eq_eq_eq, List.forall₂_map_left_iff, List.forall₂_map_right_iff]
    exact halike.imp fun _ _ => hf
  have hlast (moves : List Move) : moves.getLast?.any Move.isHorizontal =
      (moves.map Move.isHorizontal).getLast?.any id := by
    rw [List.getLast?_map, Option.any_map]
    rfl
  obtain ⟨hx, hy⟩ := Prod.mk.inj hstart
  rw [pathData, pathData, hlast, hlast b.moves, hx, hy, hmap fun h => h.pathData_eq.1,
    hmap fun h => h.pathData_eq.2]

/-- Two connectors have the same path data iff they start at the same point and go on with moves
that are alike. -/
theorem pathData_eq_iff {radius : Int} {a b : Connector} :
    a.pathData radius = b.pathData radius ↔
      a.start = b.start ∧ List.Forall₂ (Move.Alike radius) a.moves b.moves := by
  constructor
  · intro h
    have hread := a.reads_track radius
    rw [h] at hread
    obtain ⟨hfirst, hothers⟩ := List.cons.inj (hread.unique (b.reads_track radius))
    have hmoves : a.moves.map (Move.command radius) = b.moves.map (Move.command radius) := by
      rw [← filter_track radius a, ← filter_track radius b]
      exact congrArg _ hothers
    constructor
    · simpa [start] using hfirst
    · rw [← List.forall₂_eq_eq_eq, List.forall₂_map_left_iff, List.forall₂_map_right_iff] at hmoves
      exact hmoves.imp fun _ _ h => Move.alike_of_command_eq h
  · rintro ⟨hstart, halike⟩
    exact pathData_eq_of_alike hstart halike

/-- The path data of a connector say what the connector says.  They are read in one way: as a move
to its start, a command for each of its moves, and half a unit more if the last one is horizontal.
With each command the pen goes as far as the move does, so without the half unit it comes to the end
of the connector.  Connectors with other starts or with moves that are not alike have other path
data. -/
theorem reads_pathData (radius : Int) (connector : Connector) :
    (∀ path, PathData.Reads (connector.pathData radius) path ↔
      path = connector.track radius ++ connector.padding) ∧
    (∀ (move : Move) (pen : Pen), (pen.apply (move.command radius)).point =
      pen.point + (((move.delta radius).1 : ℚ), ((move.delta radius).2 : ℚ))) ∧
    follow (connector.track radius) =
      (((connector.finish radius).1 : ℚ), ((connector.finish radius).2 : ℚ)) ∧
    ∀ other : Connector, connector.pathData radius = other.pathData radius ↔
      connector.start = other.start ∧
        List.Forall₂ (Move.Alike radius) connector.moves other.moves := by
  have hreads := connector.reads_track radius
  refine ⟨fun path => ⟨fun h => h.unique hreads, ?_⟩, Move.apply_command radius,
    connector.follow_track radius, fun other => pathData_eq_iff⟩
  rintro rfl
  exact hreads

end Connector

end SyntaxDiagram
