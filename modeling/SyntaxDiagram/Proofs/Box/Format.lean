import SyntaxDiagram.Box.Format
import SyntaxDiagram.Proofs.Box.Tree

/-!
# Placing boxes over what they were

A slate is wiped before anything is added to it, so nothing of an earlier place is left: whatever
state a tree was in, `Box.format` makes of it the tree that `Box.place` makes of it
(`Box.format_eq_place`).  What is added to the slate of a line while its items are placed are the
tracks between them (`Box.formatRow_false`), and to that of a branch the tracks to and from its
items (`Box.formatStack_eq`).
-/

namespace SyntaxDiagram

namespace Slate

variable {m : Metrics}

/-! ### What is added to a slate -/

/-- Connectors that are added one after the other stand behind those of before. -/
theorem addAll_eq (slate : Slate) (connectors : List Connector) :
    slate.addAll connectors = ⟨slate.x, slate.y, slate.connectors ++ connectors⟩ := by
  unfold addAll
  induction connectors generalizing slate with
  | nil => rw [List.foldl_nil, List.append_nil]
  | cons connector rest ih =>
    rw [List.foldl_cons, ih]
    simp only [add, List.append_assoc, List.singleton_append]

/-- What is added for the gaps is the track that fills them. -/
theorem addGaps_eq (role : Role) (x y span own : Int) (slate : Slate) :
    slate.addGaps m role x y span own =
      ⟨slate.x, slate.y, slate.connectors ++ Box.gapTracks m role x y span own⟩ := by
  unfold addGaps Box.gapTracks
  dsimp only
  by_cases hleft : (m.alignment.gaps span own).1 = 0
  · rw [if_pos hleft, if_pos hleft]
    by_cases hright : (m.alignment.gaps span own).2 = 0
    · rw [if_pos hright, if_pos hright]
      simp only [List.append_nil]
    · rw [if_neg hright, if_neg hright]
      simp only [add, List.nil_append]
  · rw [if_neg hleft, if_neg hleft]
    by_cases hright : (m.alignment.gaps span own).2 = 0
    · rw [if_pos hright, if_pos hright]
      simp only [add, List.append_nil]
    · rw [if_neg hright, if_neg hright]
      simp only [add, List.append_assoc]

end Slate

namespace Box

variable {m : Metrics}

@[simp]
theorem branchRole_map {α β : Type} (f : α → β) (box : Box α) :
    (box.map f).branchRole = box.branchRole := by
  cases box <;> rfl

/-! ### Rows and stacks -/

section items

variable {items : List (Box (Option Placement))}
  (h : ∀ item ∈ items, ∀ x y span, item.format m x y span = (item.place m x y span).map some)

include h

/-- In a row after its first item, the track in front of each item is added to the line. -/
theorem formatRow_false (role : Role) (x y : Int) (slate : Slate) :
    formatRow m role false x y slate items =
      (slate.addAll (joinTracks m role x y (items.map width)),
        (placeRow m (x + m.itemGap) y items).map (map some)) := by
  induction items generalizing x slate with
  | nil => rfl
  | cons item rest ih =>
    rw [List.forall_mem_cons] at h
    rw [formatRow, if_neg Bool.false_ne_true]
    dsimp only
    rw [ih h.2, h.1]
    rfl

theorem formatStack_eq (x y inner : Int) (offsets : List Int) (slate : Slate) :
    formatStack m x y inner offsets slate items =
      (slate.addAll ((offsets.zip (items.map branchRole)).flatMap fun (offset, role) =>
          itemTracks m x y inner offset role),
        (placeStack m (x + 2 * m.arcRadius) y inner offsets items).map (map some)) := by
  induction items generalizing offsets slate with
  | nil =>
    rw [List.map_nil, List.zip_nil_right]
    rfl
  | cons item rest ih =>
    rw [List.forall_mem_cons] at h
    rw [formatStack, ih h.2, h.1]
    cases offsets with
    | nil => rfl
    | cons offset offsets =>
      simp only [List.head?_cons, Option.elim_some, List.tail_cons, List.map_cons,
        List.zip_cons_cons, List.flatMap_cons, Slate.addAll_eq, List.append_assoc]
      rfl

end items

/-- The first item of a row stands where the row begins. -/
theorem formatRow_true {item : Box (Option Placement)} {rest : List (Box (Option Placement))}
    (h : ∀ box ∈ item :: rest, ∀ x y span,
      box.format m x y span = (box.place m x y span).map some)
    (role : Role) (x y : Int) (slate : Slate) :
    formatRow m role true x y slate (item :: rest) =
      (slate.addAll (joinTracks m role (x + item.width) y (rest.map width)),
        (placeRow m x y (item :: rest)).map (map some)) := by
  rw [List.forall_mem_cons] at h
  rw [formatRow, if_pos rfl]
  dsimp only
  rw [formatRow_false h.2, h.1]
  rfl

/-! ### Trees -/

/-- A box that is placed over whatever it was before is the box placed for the first time. -/
theorem format_eq_place (x y span : Int) (box : Box (Option Placement)) :
    box.format m x y span = (box.place m x y span).map some := by
  induction box using Box.induction generalizing x y span with
  | step box ih =>
    cases box with
    | label frame kind text =>
      rw [format, Slate.addGaps_eq]
      rfl
    | line frame role items =>
      cases items with
      | nil =>
        -- nothing but track, unless there is no span to fill
        by_cases hspan : span = 0
        · simp only [format, place, lineTracks, List.isEmpty_nil, List.map_nil, if_pos, hspan,
            Int.add_zero]
          rfl
        · simp only [format, place, lineTracks, List.isEmpty_nil, List.map_nil, if_pos, hspan,
            Int.add_zero]
          rfl
      | cons item rest =>
        have hitems : ∀ box ∈ item :: rest, ∀ x y span,
          box.format m x y span = (box.place m x y span).map some := ih
        rw [format, List.isEmpty_cons, if_neg Bool.false_ne_true]
        dsimp only
        rw [formatRow_true hitems, Slate.addGaps_eq, Slate.addAll_eq, ← mapList_eq_map]
        rfl
    | branch frame mainIndex separators offsets items =>
      have hitems : ∀ item ∈ items, ∀ x y span,
        item.format m x y span = (item.place m x y span).map some := ih
      rw [format]
      dsimp only
      rw [formatStack_eq hitems, Slate.addGaps_eq, Slate.addAll_eq, ← mapList_eq_map]
      rfl
    | loop frame offset item =>
      rw [format, Slate.addGaps_eq, Slate.addAll_eq, ih item (List.mem_singleton_self item)]
      rfl

end Box

end SyntaxDiagram
