import SyntaxDiagram.Proofs.Box.Built
import SyntaxDiagram.Proofs.Element.Language

/-!
# The language of a box

The words that a tree of boxes stands for.  Layout keeps the language: that of the box of an element
is that of the element (`Element.language_of_toBox`), and likewise for alternatives
(`language_of_alternativesBox`).
-/

namespace SyntaxDiagram

/-- The token that a label box shows. -/
def LabelKind.token (text : String) : LabelKind → Token
  | .terminal => .literal text
  | .rule _ => .reference text

namespace Box

variable {α : Type}

mutual

/-- The words that a box stands for. -/
def language : Box α → Language Token
  | .label _ kind text => {[kind.token text]}
  | .line _ _ items => lineLanguage items
  | .branch _ _ _ _ items => branchLanguage items
  | .loop _ _ item => language item * KStar.kstar (language item)

/-- The words of boxes one after the other. -/
def lineLanguage : List (Box α) → Language Token
  | [] => 1
  | box :: rest => language box * lineLanguage rest

/-- The words of any of some boxes. -/
def branchLanguage : List (Box α) → Language Token
  | [] => 0
  | box :: rest => language box + branchLanguage rest

end

theorem lineLanguage_eq_prod (items : List (Box α)) :
    lineLanguage items = (items.map language).prod := by
  induction items with
  | nil => rfl
  | cons box rest ih => rw [lineLanguage, ih, List.map_cons, List.prod_cons]

theorem branchLanguage_eq_sum (items : List (Box α)) :
    branchLanguage items = (items.map language).sum := by
  induction items with
  | nil => rfl
  | cons box rest ih => rw [branchLanguage, ih, List.map_cons, List.sum_cons]

variable [Inhabited α] {m : Metrics}

/-- A line stands for the words of its items in a row. -/
theorem language_ofItems (role : Role) (items : List (Box α)) :
    (ofItems m role items).language = (items.map language).prod := by
  rw [← lineLanguage_eq_prod]
  cases items <;> rw [ofItems, language]

/-- A branch stands for the words of any of its items. -/
theorem language_stacked (above : List (Box α)) (main : Box α) (below : List (Box α)) :
    (stacked m above main below).language = ((above ++ main :: below).map language).sum := by
  rw [stacked, language, branchLanguage_eq_sum]

/-- A loop stands for its item once and any number of times more. -/
theorem language_repeated (item : Box α) :
    (Box.repeated m item).language = item.language * KStar.kstar item.language := by
  rw [Box.repeated, language]

theorem language_of_measured {measure : Measure} {kind : LabelKind} {text : String} {box : Box α}
    (h : measured m measure kind text = .ok box) : box.language = {[kind.token text]} := by
  rw [measured, bind_eq_ok_iff] at h
  obtain ⟨textWidth, -, h⟩ := h
  obtain rfl := pure_eq_ok_iff.mp h
  rw [ofLabel, language]

/-- A choice stands for the words of any of its items, also where it comes down to one. -/
theorem language_of_ofBranches {mainIndex : Int} {items : List (Box α)} {box : Box α}
    (h : ofBranches m mainIndex items = .ok box) : box.language = (items.map language).sum := by
  unfold ofBranches at h
  split_ifs at h with hneg
  split at h
  · exact absurd h (by simp)
  · rename_i main below hdrop
    obtain rfl := Except.ok.inj h
    rw [language_stacked, ← hdrop, List.take_append_drop]

end Box

/-! ### Layout -/

namespace Element

variable {m : Metrics} {measure : Measure}

/-- Loops and bypasses stand for what their quantifier means. -/
theorem language_of_quantifiedBox {item box : Box Unit} {quantifier : Quantifier}
    (h : quantifiedBox m item quantifier = .ok box) :
    box.language = quantifier.language item.language := by
  have hbypass : (bypassTrack m).language = 1 := Box.language_ofItems .bypass []
  cases quantifier with
  | optional =>
    obtain rfl := Except.ok.inj h
    simp [Box.language_stacked, hbypass, Quantifier.language]
  | star =>
    -- nothing, or once and then as often as may be
    obtain rfl := Except.ok.inj h
    simp [Box.language_stacked, Box.language_repeated, hbypass, Quantifier.language,
      Language.one_add_self_mul_kstar_eq_kstar]
  | plus =>
    obtain rfl := Except.ok.inj h
    exact Box.language_repeated item
  | unknown mark => exact absurd h (by simp [quantifiedBox])

/-- The box of an element stands for its words, by induction over the element. -/
theorem language_of_toBox {element : Element} {box : Box Unit}
    (h : element.toBox m measure = .ok box) : box.language = element.language := by
  induction element generalizing box with
  | literal text => exact Box.language_of_measured h
  | reference identifier kind => exact Box.language_of_measured h
  | sequence items ih =>
    obtain ⟨boxes, hboxes, rfl⟩ := toBox_sequence_eq_ok_iff.mp h
    rw [Box.language_ofItems, language, sequenceLanguage_eq_prod,
      map_eq_map_of_mapM_eq_ok hboxes fun item hitem box hbox => ih item hitem hbox]
  | alternation branches ih =>
    obtain ⟨boxes, hboxes, h⟩ := toBox_alternation_eq_ok_iff.mp h
    rw [Box.language_of_ofBranches h, language, choiceLanguage_eq_sum,
      map_eq_map_of_mapM_eq_ok hboxes fun branch hbranch box hbox => ih branch hbranch hbox]
  | quantified item quantifier ih =>
    obtain ⟨inner, hinner, h⟩ := toBox_quantified_eq_ok_iff.mp h
    rw [language_of_quantifiedBox h, language, ih hinner]
  | foreign name => exact absurd h (by simp [toBox])

theorem language_of_line {elements : List Element} {line : Box Unit}
    (h : (do return Box.ofItems m .line (← toBoxes m measure elements)) = Except.ok line) :
    line.language = sequenceLanguage elements := by
  obtain ⟨boxes, hboxes, rfl⟩ := line_eq_ok_iff.mp h
  rw [Box.language_ofItems, sequenceLanguage_eq_prod,
    map_eq_map_of_mapM_eq_ok hboxes fun _ _ _ hbox => language_of_toBox hbox]

end Element

/-- The box of some alternatives stands for the words of the alternatives. -/
theorem language_of_alternativesBox {m : Metrics} {measure : Measure}
    {alternatives : List (List Element)} {box : Box Unit}
    (h : alternativesBox m measure alternatives = .ok box) :
    box.language = alternativesLanguage alternatives := by
  rw [alternativesBox, bind_eq_ok_iff] at h
  obtain ⟨lines, hlines, h⟩ := h
  have hlanguages : lines.map Box.language = alternatives.map Element.sequenceLanguage :=
    map_eq_map_of_mapM_eq_ok hlines fun _ _ _ hline => Element.language_of_line hline
  -- there are as many lines as alternatives
  cases alternatives with
  | nil =>
    obtain rfl : lines = [] := List.map_eq_nil_iff.mp hlanguages
    obtain rfl := pure_eq_ok_iff.mp h
    exact Box.language_ofItems .line []
  | cons alternative rest =>
    rcases lines with _ | ⟨first, _ | ⟨second, others⟩⟩
    · exact absurd hlanguages (by simp)
    · obtain rfl := pure_eq_ok_iff.mp h
      rw [alternativesLanguage, ← hlanguages, List.map_singleton, List.sum_singleton]
      simp
    · obtain rfl := pure_eq_ok_iff.mp h
      rw [Box.language_stacked, alternativesLanguage, ← hlanguages, List.nil_append]
      simp

end SyntaxDiagram
