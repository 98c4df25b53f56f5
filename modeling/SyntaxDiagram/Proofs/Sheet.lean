import SyntaxDiagram.Sheet
import SyntaxDiagram.Proofs.Box.Format
import SyntaxDiagram.Proofs.Box.Placing
import Mathlib.Tactic.SplitIfs

/-!
# Drawing again

What a tree of boxes is without its places is its outline (`Box.outline`).  Placing a box, or a box
inside of it, keeps the outline (`Box.outline_format`), and as all that was drawn for a box is wiped
first, where the boxes were before makes no difference (`Box.format_outline`).  So after any history
of requests the outline of a sheet is what it was, the next placing of the whole tree gives what it
would have given at first, and a sheet that has been drawn is not drawn again
(`Sheet.exists_redrawn`).
-/

namespace SyntaxDiagram

namespace Box

variable {α β γ : Type}

/-! ### Changed places -/

theorem map_map (f : α → β) (g : β → γ) (box : Box α) : (box.map f).map g = box.map (g ∘ f) := by
  induction box using Box.induction with
  | step box ih =>
    cases box with
    | label frame kind text => rfl
    | line frame role items =>
      simp only [map, mapList_eq_map, List.map_map]
      exact congrArg (Box.line _ role) (List.map_congr_left ih)
    | branch frame mainIndex separators offsets items =>
      simp only [map, mapList_eq_map, List.map_map]
      exact congrArg (Box.branch _ mainIndex separators offsets) (List.map_congr_left ih)
    | loop frame offset item =>
      simp only [map]
      exact congrArg (Box.loop _ offset) (ih item (List.mem_singleton_self item))

theorem descend?_map (f : α → β) (path : List Nat) (box : Box α) :
    (box.map f).descend? path = (box.descend? path).map (map f) := by
  induction path generalizing box with
  | nil => rfl
  | cons index path ih =>
    rw [descend?, descend?, children_map, List.getElem?_map]
    cases box.children[index]? with
    | none => rfl
    | some child => exact ih child

theorem map_setChild (f : α → β) (box : Box α) (index : Nat) (child : Box α) :
    (box.setChild index child).map f = (box.map f).setChild index (child.map f) := by
  cases box with
  | label frame kind text => rfl
  | line frame role items => simp only [setChild, map, mapList_eq_map, List.map_set]
  | branch frame mainIndex separators offsets items =>
    simp only [setChild, map, mapList_eq_map, List.map_set]
  | loop frame offset item =>
    simp only [setChild, map]
    split_ifs <;> rfl

theorem setChild_eq_self {box child : Box α} {index : Nat}
    (h : box.children[index]? = some child) : box.setChild index child = box := by
  have hset (items : List (Box α)) (h : items[index]? = some child) :
      items.set index child = items := by
    obtain ⟨hlt, rfl⟩ := List.getElem?_eq_some_iff.mp h
    exact List.set_getElem_self hlt
  cases box with
  | label frame kind text => rfl
  | line frame role items => rw [setChild, hset items h]
  | branch frame mainIndex separators offsets items => rw [setChild, hset items h]
  | loop frame offset item =>
    rw [setChild]
    split_ifs with hindex
    · subst hindex
      rw [Option.some.inj h]
    · rfl

/-! ### Outlines -/

/-- The same tree with nothing placed. -/
def outline (box : Box α) : Box (Option Placement) :=
  box.map fun _ => none

theorem outline_map (f : α → β) (box : Box α) : (box.map f).outline = box.outline := by
  rw [outline, map_map]
  rfl

variable {m : Metrics}

/-- Placing a tree makes no use of the places in it. -/
theorem place_map (f : α → β) (x y span : Int) (box : Box α) :
    (box.map f).place m x y span = box.place m x y span := by
  induction box using Box.induction generalizing x y span with
  | step box ih =>
    cases box with
    | label frame kind text => rfl
    | line frame role items =>
      have hitems : ∀ item ∈ items, ∀ x y span, (item.map f).place m x y span =
        item.place m x y span := ih
      have hwidths : (items.map (map f)).map width = items.map width := by
        rw [List.map_map]
        exact List.map_congr_left fun item _ => width_map f item
      simp only [map, mapList_eq_map, place, placeRow_map (g := id) hitems (width_map f),
        List.map_id, List.isEmpty_map, hwidths]
      rfl
    | branch frame mainIndex separators offsets items =>
      have hitems : ∀ item ∈ items, ∀ x y span, (item.map f).place m x y span =
        item.place m x y span := ih
      have hroles : (items.map (map f)).map branchRole = items.map branchRole := by
        rw [List.map_map]
        exact List.map_congr_left fun item _ => branchRole_map f item
      simp only [map, mapList_eq_map, place, placeStack_map (g := id) hitems, List.map_id, hroles]
      rfl
    | loop frame offset item =>
      simp only [map, place, ih item (List.mem_singleton_self item)]
      rfl

/-- Placing a tree changes nothing but the places in it. -/
theorem outline_place (x y span : Int) (box : Box α) :
    (box.place m x y span).outline = box.outline := by
  induction box using Box.induction generalizing x y span with
  | step box ih =>
    cases box with
    | label frame kind text => rfl
    | line frame role items =>
      simp only [place, outline, map, mapList_eq_map]
      exact congrArg (Box.line _ role) (map_placed (forall₂_placeRow ..) ih)
    | branch frame mainIndex separators offsets items =>
      simp only [place, outline, map, mapList_eq_map]
      exact congrArg (Box.branch _ mainIndex separators offsets)
        (map_placed (forall₂_placeStack ..) ih)
    | loop frame offset item =>
      simp only [place, outline, map]
      exact congrArg (Box.loop _ offset) (ih item (List.mem_singleton_self item) ..)

/-- Placing a tree again changes nothing but the places in it. -/
theorem outline_format (x y span : Int) (box : Box (Option Placement)) :
    (box.format m x y span).outline = box.outline := by
  rw [format_eq_place, outline_map, outline_place]

/-- A tree that is placed again is where it is when it is placed for the first time. -/
theorem format_outline (x y span : Int) (box : Box (Option Placement)) :
    box.outline.format m x y span = box.format m x y span := by
  rw [format_eq_place, format_eq_place, outline, place_map]

/-! ### Changes at a path -/

/-- Where a path leads to a box, that box can be changed, and the outline of the tree is kept if
that of the box is. -/
theorem exists_modifyAt? {change : Box α → Box α}
    (hchange : ∀ box, (change box).outline = box.outline) {path : List Nat} {box : Box α}
    (h : (box.descend? path).isSome) :
    ∃ box', box.modifyAt? change path = some box' ∧ box'.outline = box.outline := by
  induction path generalizing box with
  | nil => exact ⟨change box, rfl, hchange box⟩
  | cons index path ih =>
    rw [descend?] at h
    cases hchild : box.children[index]? with
    | none =>
      rw [hchild] at h
      exact absurd h Bool.false_ne_true
    | some child =>
      rw [hchild, Option.bind_some] at h
      obtain ⟨child', hmodify, houtline⟩ := ih h
      refine ⟨box.setChild index child', ?_, ?_⟩
      · simp only [modifyAt?, hchild, hmodify, bind, Option.bind, pure]
      · -- in the outline, the child is replaced by itself
        have houtlines : box.outline.children[index]? = some child.outline := by
          rw [outline, children_map, List.getElem?_map, hchild]
          rfl
        calc (box.setChild index child').outline
            = box.outline.setChild index child'.outline := map_setChild ..
          _ = box.outline.setChild index child.outline := by rw [houtline]
          _ = box.outline := setChild_eq_self houtlines

/-! ### Trees that are placed -/

/-- A tree of which all boxes are placed is read back. -/
theorem placed?_map_some (box : Box α) : (box.map some).placed? = some box := by
  induction box using Box.induction with
  | step box ih =>
    have hitems (items : List (Box α))
        (h : ∀ item ∈ items, (item.map some).placed? = some item) :
        placedList? (mapList some items) = some items := by
      induction items with
      | nil => rfl
      | cons item rest ihrest =>
        rw [List.forall_mem_cons] at h
        rw [mapList, placedList?, h.1, ihrest h.2]
        rfl
    cases box with
    | label frame kind text => rfl
    | line frame role items =>
      rw [map, placed?, hitems items ih]
      rfl
    | branch frame mainIndex separators offsets items =>
      rw [map, placed?, hitems items ih]
      rfl
    | loop frame offset item =>
      rw [map, placed?, ih item (List.mem_singleton_self item)]
      rfl

end Box

/-- The drawing of a diagram makes no use of the places in it. -/
theorem Diagram.draw_outline {α : Type} (m : Metrics) (diagram : Diagram α) :
    (diagram.withRoot diagram.root.outline).draw m = diagram.draw m := by
  simp only [draw, withRoot, Box.outline, Box.place_map, Box.width_map]

/-! ### Requests -/

/-- What can be done to a sheet: a box of it is placed, or the sheet is drawn. -/
inductive Request where
  | place (path : List Nat) (x y span : Int)
  | draw

/-- A tree has the box that a request is for. -/
def Request.Finds (root : Sketch) : Request → Prop
  | .place path .. => (root.descend? path).isSome
  | .draw => True

/-- What a request finds depends on nothing but the outline of a tree. -/
theorem Request.finds_outline {root : Sketch} {request : Request} :
    request.Finds root.outline ↔ request.Finds root := by
  cases request with
  | place path x y span =>
    unfold Finds
    dsimp only
    rw [Box.outline, Box.descend?_map, Option.isSome_map]
  | draw => exact Iff.rfl

namespace Sheet

/-- The sheet after a request, if the box for it exists. -/
def handle? (m : Metrics) (sheet : Sheet) : Request → Option Sheet
  | .place path x y span => sheet.placeAt? m x y span path
  | .draw => some (sheet.draw m)

/-- The sheet after some requests. -/
def handleAll? (m : Metrics) (history : List Request) (sheet : Sheet) : Option Sheet :=
  history.foldlM (handle? m) sheet

/-- The diagram on a sheet with nothing placed, as it is when it is new. -/
def outline (sheet : Sheet) : Diagram (Option Placement) :=
  sheet.diagram.withRoot sheet.diagram.root.outline

variable {m : Metrics} {sheet : Sheet}

/-! ### Drawing -/

/-- A sheet that has been drawn is not drawn again. -/
theorem draw_of_isDrawn (h : sheet.isDrawn = true) : sheet.draw m = sheet :=
  if_pos h

/-- Once it is drawn, a planned diagram is a drawing. -/
theorem draw_planned (m : Metrics) (diagram : Diagram (Option Placement)) :
    (planned diagram).draw m = drawn (diagram.draw m) := by
  unfold draw planned drawn Diagram.draw
  dsimp only
  rw [if_neg Bool.false_ne_true, Box.format_eq_place, Box.width_map, Box.width_place]
  rfl

/-- The drawing on a sheet that has been drawn. -/
theorem drawing?_drawn (drawing : Drawing) : (drawn drawing).drawing? = some drawing := by
  unfold drawing? drawn
  simp only [Diagram.withRoot, Box.placed?_map_some]
  rfl

/-- Rendering a planned diagram is rendering its drawing. -/
theorem render_planned (m : Metrics) (theme : Theme) (name : String)
    (diagram : Diagram (Option Placement)) :
    ((planned diagram).render m theme name).1 = (diagram.draw m).render m theme name := by
  unfold render Drawing.render
  rw [draw_planned]
  show _ = (do
    let format ← OutputFormat.forDiagram (planned diagram).diagram.identifier name
    format.write m theme (diagram.draw m))
  cases OutputFormat.forDiagram (planned diagram).diagram.identifier name with
  | error fault => rfl
  | ok format =>
    dsimp only
    rw [drawing?_drawn]
    rfl

/-! ### Histories -/

/-- Until it is drawn, there is nothing but a diagram on a sheet. -/
def Proper (sheet : Sheet) : Prop :=
  sheet.isDrawn = false → sheet = planned sheet.diagram

/-- Sheets with the same outline have the same boxes. -/
theorem finds_iff_of_outline_eq {sheet' : Sheet} (h : sheet'.outline = sheet.outline)
    {request : Request} :
    request.Finds sheet'.diagram.root ↔ request.Finds sheet.diagram.root := by
  have hroot : sheet'.diagram.root.outline = sheet.diagram.root.outline :=
    congrArg Diagram.root h
  rw [← Request.finds_outline, hroot, Request.finds_outline]

/-- A box that exists can be placed, and nothing but the tree that it is in changes. -/
theorem exists_placeAt? {path : List Nat} (h : (sheet.diagram.root.descend? path).isSome)
    (x y span : Int) :
    ∃ root : Sketch, root.outline = sheet.diagram.root.outline ∧
      sheet.placeAt? m x y span path =
        some { sheet with diagram := sheet.diagram.withRoot root } := by
  obtain ⟨root, hroot, houtline⟩ := Box.exists_modifyAt? (Box.outline_format (m := m) x y span) h
  refine ⟨root, houtline, ?_⟩
  rw [placeAt?, Sketch.placeAt?, hroot]
  rfl

/-- Every request is met if the box for it exists, and keeps the outline of the sheet. -/
theorem exists_handle? (hproper : sheet.Proper) {request : Request}
    (h : request.Finds sheet.diagram.root) :
    ∃ after, sheet.handle? m request = some after ∧ after.outline = sheet.outline ∧
      after.Proper ∧ (after.isDrawn = true ↔ sheet.isDrawn = true ∨ request = .draw) := by
  cases request with
  | place path x y span =>
    obtain ⟨root, houtline, hplace⟩ := exists_placeAt? (m := m) h x y span
    refine ⟨_, hplace, ?_, ?_, ?_⟩
    · exact congrArg sheet.diagram.withRoot houtline
    · -- what is new on a sheet that is not drawn is the tree
      intro hplanned
      have hsheet : sheet = planned sheet.diagram := hproper hplanned
      rw [hsheet]
      rfl
    · simp
  | draw =>
    refine ⟨sheet.draw m, rfl, ?_⟩
    by_cases hdrawn : sheet.isDrawn = true
    · rw [draw_of_isDrawn hdrawn]
      exact ⟨rfl, hproper, by simp [hdrawn]⟩
    · rw [hproper (by simpa using hdrawn), draw_planned]
      refine ⟨?_, fun hplanned => absurd hplanned (by simp [drawn]), by simp [drawn]⟩
      show sheet.diagram.withRoot ((sheet.diagram.root.place m _ _ _).map some).outline =
        sheet.diagram.withRoot sheet.diagram.root.outline
      rw [Box.outline_map, Box.outline_place]

/-- All requests are met if the boxes for them exist, and keep the outline of the sheet. -/
theorem exists_handleAll? (hproper : sheet.Proper) {history : List Request}
    (h : ∀ request ∈ history, request.Finds sheet.diagram.root) :
    ∃ after, sheet.handleAll? m history = some after ∧ after.outline = sheet.outline ∧
      after.Proper ∧ (after.isDrawn = true ↔ sheet.isDrawn = true ∨ .draw ∈ history) := by
  induction history generalizing sheet with
  | nil => exact ⟨sheet, rfl, rfl, hproper, by simp⟩
  | cons request rest ih =>
    rw [List.forall_mem_cons] at h
    obtain ⟨next, hnext, houtline, hproper', hdrawn⟩ := exists_handle? (m := m) hproper h.1
    have hrest : ∀ request ∈ rest, request.Finds next.diagram.root := by
      intro request hrequest
      rw [finds_iff_of_outline_eq houtline]
      exact h.2 request hrequest
    obtain ⟨after, hafter, houtline', hproper'', hdrawn'⟩ := ih hproper' hrest
    refine ⟨after, ?_, houtline'.trans houtline, hproper'', ?_⟩
    · rw [handleAll?, List.foldlM_cons, hnext]
      exact hafter
    · -- the sheet is drawn before, by the first request, or by one of the others
      rw [hdrawn', hdrawn, List.mem_cons, or_assoc, @eq_comm _ request]

/-- One more request is met on the sheet after those before it. -/
theorem handleAll?_concat (history : List Request) (request : Request) :
    sheet.handleAll? m (history ++ [request]) =
      (sheet.handleAll? m history).bind fun after => after.handle? m request := by
  simp only [handleAll?, List.foldlM_append, List.foldlM_cons, List.foldlM_nil, bind_pure]
  rfl

/-- Placing the whole tree gives the same boxes on all sheets with the same outline. -/
theorem exists_placeAt?_nil (m : Metrics) (sheet : Sheet) (x y span : Int) :
    ∃ placed, sheet.placeAt? m x y span [] = some placed ∧ placed.outline = sheet.outline ∧
      placed.diagram.root = (sheet.outline.root.place m x y span).map some := by
  refine ⟨_, rfl, ?_, ?_⟩
  · exact congrArg sheet.diagram.withRoot (Box.outline_format x y span sheet.diagram.root)
  · show sheet.diagram.root.format m x y span =
      (sheet.diagram.root.outline.place m x y span).map some
    rw [← Box.format_outline, Box.format_eq_place]

/-- After any history of requests for boxes that exist, on a sheet of which any boxes were placed
before, the outline is what it was. Placing the whole tree then gives every box the place that it
has on a new sheet, and so does drawing the sheet if it has not been drawn yet; if it has been drawn
before, drawing it again changes nothing. -/
theorem exists_redrawn (m : Metrics) (diagram : Diagram (Option Placement)) {history : List Request}
    (h : ∀ request ∈ history, request.Finds diagram.root) :
    ∃ after, (planned diagram).handleAll? m history = some after ∧
      after.outline = (planned diagram).outline ∧
      (∀ x y span, ∃ placed fresh, after.placeAt? m x y span [] = some placed ∧
        (planned (planned diagram).outline).placeAt? m x y span [] = some fresh ∧
        placed.outline = (planned diagram).outline ∧ placed.diagram.root = fresh.diagram.root ∧
        fresh.diagram.root = (diagram.root.place m x y span).map some) ∧
      (.draw ∉ history →
        after.draw m = (planned (planned diagram).outline).draw m ∧
          after.draw m = drawn (diagram.draw m)) ∧
      (.draw ∈ history → after.draw m = after) := by
  have hproper : (planned diagram).Proper := fun _ => rfl
  obtain ⟨after, hafter, houtline, hproper', hdrawn⟩ := exists_handleAll? (m := m) hproper h
  have hfresh : (planned (planned diagram).outline).outline = (planned diagram).outline :=
    congrArg diagram.withRoot (Box.outline_map _ diagram.root)
  have hplace (x y span : Int) : (planned diagram).outline.root.place m x y span =
    diagram.root.place m x y span := Box.place_map _ x y span diagram.root
  refine ⟨after, hafter, houtline, fun x y span => ?_, fun hnot => ?_, fun hmem => ?_⟩
  · -- both sheets have one outline, and placing reads nothing else of a sheet
    obtain ⟨placed, hplaced, hkeep, hroot⟩ := exists_placeAt?_nil m after x y span
    obtain ⟨fresh, hplaced', -, hroot'⟩ :=
      exists_placeAt?_nil m (planned (planned diagram).outline) x y span
    rw [houtline] at hkeep hroot
    rw [hfresh] at hroot'
    exact ⟨placed, fresh, hplaced, hplaced', hkeep, hroot.trans hroot'.symm, by rw [hroot', hplace]⟩
  · -- drawing an undrawn sheet looks at its outline alone
    have hplanned : after.isDrawn = false := by
      rw [← Bool.not_eq_true, hdrawn]
      exact not_or.mpr ⟨Bool.false_ne_true, hnot⟩
    have hdraw : after.diagram.draw m = diagram.draw m := by
      calc after.diagram.draw m = after.outline.draw m := (Diagram.draw_outline m _).symm
        _ = (planned diagram).outline.draw m := by rw [houtline]
        _ = diagram.draw m := Diagram.draw_outline m diagram
    have hdraw' : (planned diagram).outline.draw m = diagram.draw m :=
      Diagram.draw_outline m diagram
    rw [hproper' hplanned, draw_planned, draw_planned, hdraw, hdraw']
    exact ⟨rfl, rfl⟩
  · exact draw_of_isDrawn (hdrawn.mpr (Or.inr hmem))

/-- A loop with a track past it. -/
def bypassedLoop : Diagram (Option Placement) :=
  .ofBox .standard ⟨.rule, "item", "", []⟩
    (.stacked .standard [.ofItems .standard .bypass []]
      (.repeated .standard (.ofLabel .standard .terminal "item" 34)) []) 20

/-- Requests by which parts of it are placed before and after it is drawn. -/
def bypassedLoopHistory : List Request :=
  [.place [1, 0] 3 4 60, .place [] 0 0 200, .draw, .place [0] 1 2 3, .draw]

/-- Where the connectors on a sheet start. -/
def starts (sheet : Sheet) : List Point :=
  sheet.connectors.map fun connector => (connector.x, connector.y)

/-- After that the track past the loop is where it was put last. Once all of it is placed in the
same wide span as before, no connector is there twice. -/
theorem exists_redrawn_sample :
    (∀ request ∈ bypassedLoopHistory, request.Finds bypassedLoop.root) ∧
      ∃ after, (planned bypassedLoop).handleAll? .standard bypassedLoopHistory = some after ∧
        after.draw .standard = after ∧ after.endPoints? = some ((20, 40), (174, 40)) ∧
        after.starts = [(20, 40), (154, 40), (40, 40), (134, 20), (40, 40), (134, 40), (1, 2),
          (60, 40), (124, 40), (124, 40)] ∧
        (after.placeAt? .standard 0 0 200 []).map starts =
          some [(20, 40), (154, 40), (0, 0), (157, 0), (43, 0), (137, -20), (43, 0), (137, 0),
            (63, -20), (63, 0), (127, 0), (127, 0)] := by
  have h : ∀ request ∈ bypassedLoopHistory, request.Finds bypassedLoop.root := by
    simp only [bypassedLoopHistory, List.forall_mem_cons]
    exact ⟨rfl, rfl, trivial, rfl, trivial, fun _ h => absurd h List.not_mem_nil⟩
  have hbefore : ((planned bypassedLoop).handleAll? .standard bypassedLoopHistory).map
      (fun sheet => (sheet.endPoints?, sheet.starts)) =
        some (some ((20, 40), (174, 40)), [(20, 40), (154, 40), (40, 40), (134, 20), (40, 40),
          (134, 40), (1, 2), (60, 40), (124, 40), (124, 40)]) := by
    decide +kernel
  have hafter : ((planned bypassedLoop).handleAll? .standard
      (bypassedLoopHistory ++ [.place [] 0 0 200])).map starts =
        some [(20, 40), (154, 40), (0, 0), (157, 0), (43, 0), (137, -20), (43, 0), (137, 0),
          (63, -20), (63, 0), (127, 0), (127, 0)] := by
    decide +kernel
  obtain ⟨after, hhistory, -, -, -, hdrawn⟩ := exists_redrawn .standard bypassedLoop h
  rw [hhistory, Option.map_some, Option.some.injEq, Prod.mk.injEq] at hbefore
  rw [handleAll?_concat, hhistory] at hafter
  exact ⟨h, after, hhistory, hdrawn (by simp [bypassedLoopHistory]), hbefore.1, hbefore.2, hafter⟩

end Sheet

end SyntaxDiagram
