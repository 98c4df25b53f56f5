import SyntaxDiagram.Proofs.Box.Built
import SyntaxDiagram.Proofs.Box.Tree
import SyntaxDiagram.Proofs.Geometry.Stroke
import Mathlib.Data.Multiset.AddSub

/-!
# What is seen of a box

The picture of a placed tree is what is seen of it: its label boxes in order, and all connectors in
no order (`Box.picture`).  It is the sum of the pictures of all boxes in the tree, so what is seen
of a box is known from what is seen of its children (`Box.picture_ofItems`, `Box.picture_stacked`,
`Box.picture_repeated`), and a line in a line is seen as its items in its place
(`Box.lined_splice`).
-/

namespace SyntaxDiagram

/-! ### Pictures -/

/-- What is seen of a label box. -/
structure Sign where
  kind : LabelKind
  text : String
  x : Int
  y : Int
  width : Int
  deriving DecidableEq, Repr

/-- The signs of some boxes in order, and their connectors in no order. -/
@[ext]
structure Picture where
  signs : List Sign
  tracks : Multiset Connector

namespace Picture

instance : Zero Picture :=
  ⟨⟨[], 0⟩⟩

instance : Add Picture :=
  ⟨fun p q => ⟨p.signs ++ q.signs, p.tracks + q.tracks⟩⟩

@[simp] theorem signs_zero : (0 : Picture).signs = [] := rfl
@[simp] theorem tracks_zero : (0 : Picture).tracks = 0 := rfl
@[simp] theorem signs_add (p q : Picture) : (p + q).signs = p.signs ++ q.signs := rfl
@[simp] theorem tracks_add (p q : Picture) : (p + q).tracks = p.tracks + q.tracks := rfl

instance : AddMonoid Picture where
  add_assoc p q r := Picture.ext (List.append_assoc ..) (add_assoc ..)
  zero_add p := Picture.ext (List.nil_append _) (zero_add _)
  add_zero p := Picture.ext (List.append_nil _) (add_zero _)
  nsmul := nsmulRec

/-- The picture of some connectors. -/
def ofTracks (tracks : List Connector) : Picture :=
  ⟨[], tracks⟩

@[simp]
theorem ofTracks_nil : ofTracks [] = 0 := rfl

/-- The picture of some connectors adds up, one list after the other. -/
theorem ofTracks_append (tracks tracks' : List Connector) :
    ofTracks (tracks ++ tracks') = ofTracks tracks + ofTracks tracks' := by
  ext1
  · rfl
  · exact (Multiset.coe_add ..).symm

theorem ofTracks_cons (c : Connector) (tracks : List Connector) :
    ofTracks (c :: tracks) = ofTracks [c] + ofTracks tracks :=
  ofTracks_append [c] tracks

/-- Where the connectors stand in a picture makes no difference. -/
theorem add_ofTracks_add (p : Picture) (tracks : List Connector) (q : Picture) :
    p + (ofTracks tracks + q) = ofTracks tracks + (p + q) := by
  ext1
  · rfl
  · exact add_left_comm ..

end Picture

namespace Box

open Picture

/-- The sign of a placed box, if it is a label. -/
def sign? : Box Placement → Option Sign
  | .label frame kind text => some ⟨kind, text, frame.place.x, frame.place.y, frame.width⟩
  | _ => none

/-- What is seen of a placed box itself. -/
def mark (box : Box Placement) : Picture :=
  ⟨box.sign?.toList, box.frame.place.connectors⟩

/-- What is seen of a placed tree. -/
def picture (box : Box Placement) : Picture :=
  (box.boxes.map mark).sum

/-- What is seen of a tree is its root's own mark and what is seen of each child. -/
theorem picture_eq_add (box : Box Placement) :
    box.picture = box.mark + (box.children.map picture).sum := by
  rw [picture, boxes_eq_cons, List.map_cons, List.sum_cons]
  congr 1
  induction box.children with
  | nil => rfl
  | cons child rest ih =>
    rw [List.flatMap_cons, List.map_append, List.sum_append, ih, List.map_cons, List.sum_cons]
    rfl

/-- Adding up marks keeps the signs in order. -/
theorem signs_sum_map_mark (boxes : List (Box Placement)) :
    (boxes.map mark).sum.signs = boxes.filterMap sign? := by
  induction boxes with
  | nil => rfl
  | cons box rest ih =>
    rw [List.map_cons, List.sum_cons, signs_add, ih, List.filterMap_cons]
    cases h : box.sign? <;> simp [mark, h]

/-- Adding up marks gathers the connectors, however they are ordered. -/
theorem tracks_sum_map_mark (boxes : List (Box Placement)) :
    (boxes.map mark).sum.tracks = boxes.flatMap (·.frame.place.connectors) := by
  induction boxes with
  | nil => rfl
  | cons box rest ih =>
    rw [List.map_cons, List.sum_cons, tracks_add, ih, List.flatMap_cons, ← Multiset.coe_add]
    rfl

/-- The signs of a tree are those of its boxes in document order. -/
theorem signs_picture (box : Box Placement) : box.picture.signs = box.boxes.filterMap sign? :=
  signs_sum_map_mark box.boxes

/-- The tracks of a tree are all its connectors, as often as each occurs. -/
theorem tracks_picture (box : Box Placement) : box.picture.tracks = box.connectors :=
  tracks_sum_map_mark box.boxes

variable {α : Type} {m : Metrics}

/-! ### Pictures of rows -/

/-- What is seen of some items that stand side by side, and of the track in front of each. -/
def led (m : Metrics) (x y : Int) : List (Box α) → Picture
  | [] => 0
  | item :: rest =>
    ofTracks [.horizontal x y .line m.itemGap] +
      ((item.place m (x + m.itemGap) y item.width).picture +
        led m (x + m.itemGap + item.width) y rest)

/-- What is seen of some items that stand side by side, and of the track between them. -/
def lined (m : Metrics) (x y : Int) : List (Box α) → Picture
  | [] => 0
  | first :: rest =>
    (first.place m x y first.width).picture + led m (x + first.width) y rest

/-- The length of some items that stand side by side, and of the track in front of each. -/
def ledWidth (m : Metrics) (items : List (Box α)) : Int :=
  (items.map fun item => m.itemGap + item.width).sum

theorem ledWidth_cons (item : Box α) (rest : List (Box α)) :
    ledWidth m (item :: rest) = m.itemGap + item.width + ledWidth m rest := by
  rw [ledWidth, List.map_cons, List.sum_cons, ledWidth]

/-- Led items take up their widths one after the other. -/
theorem ledWidth_append (items rest : List (Box α)) :
    ledWidth m (items ++ rest) = ledWidth m items + ledWidth m rest := by
  rw [ledWidth, List.map_append, List.sum_append, ledWidth, ledWidth]

/-- Led items are lined ones behind one more item gap. -/
theorem led_eq_lined (x y : Int) {items : List (Box α)} (h : items ≠ []) :
    led m x y items =
      ofTracks [.horizontal x y .line m.itemGap] + lined m (x + m.itemGap) y items := by
  obtain ⟨first, rest, rfl⟩ := List.exists_cons_of_ne_nil h
  rfl

/-- Led items are the tracks that join them and the pictures of the items themselves. -/
theorem led_eq_add (x y : Int) (items : List (Box α)) :
    led m x y items = ofTracks (joinTracks m .line x y (items.map width)) +
      ((placeRow m (x + m.itemGap) y items).map picture).sum := by
  induction items generalizing x with
  | nil => rfl
  | cons item rest ih =>
    -- the tracks that follow come before the picture of the item
    rw [led, ih, add_ofTracks_add, List.map_cons, joinTracks, placeRow, List.map_cons,
      List.sum_cons, ← add_assoc, ← ofTracks_cons]

/-- Led items go on where the items before them end. -/
theorem led_append (x y : Int) (items rest : List (Box α)) :
    led m x y (items ++ rest) = led m x y items + led m (x + ledWidth m items) y rest := by
  induction items generalizing x with
  | nil => simp [led, ledWidth]
  | cons item items ih =>
    have hx : x + m.itemGap + item.width + ledWidth m items = x + ledWidth m (item :: items) := by
      rw [ledWidth_cons]
      omega
    rw [List.cons_append, led, ih, hx, led]
    simp only [add_assoc]

/-! ### Pictures of what the builders give -/

variable [Inhabited α]

/-- What is seen of a label: its gap tracks and one sign. -/
theorem picture_ofLabel (x y span : Int) (kind : LabelKind) (text : String) (textWidth : Int) :
    ((ofLabel m kind text textWidth : Box α).place m x y span).picture =
      ofTracks (gapTracks m .line x y span (textWidth + m.labelPadding)) +
        ⟨[⟨kind, text, x + leftGap m span (textWidth + m.labelPadding), y,
          textWidth + m.labelPadding⟩], 0⟩ := by
  rw [picture_eq_add]
  ext1
  · rfl
  · rfl

theorem picture_stacked (x y span : Int) (above : List (Box α)) (main : Box α)
    (below : List (Box α)) :
    ((stacked m above main below).place m x y span).picture =
      ofTracks (gapTracks m .line x y span (stacked m above main below).width) +
        (ofTracks (((stacked m above main below).offsets.zip
            ((above ++ main :: below).map branchRole)).flatMap fun t =>
              itemTracks m (x + leftGap m span (stacked m above main below).width) y
                ((stacked m above main below).width - 4 * m.arcRadius) t.1 t.2) +
          ((placeStack m
            (x + leftGap m span (stacked m above main below).width + 2 * m.arcRadius) y
            ((stacked m above main below).width - 4 * m.arcRadius)
            (stacked m above main below).offsets (above ++ main :: below)).map picture).sum) := by
  rw [picture_eq_add, ← add_assoc, ← ofTracks_append]
  rfl

/-- What is seen of a loop: its gap tracks, the tracks around the item, and the item. -/
theorem picture_repeated (x y span : Int) (item : Box α) :
    ((repeated m item).place m x y span).picture =
      ofTracks (gapTracks m .line x y span (repeated m item).width) +
        (ofTracks (loopTracks m (x + leftGap m span (repeated m item).width) y
            (repeated m item).width (repeated m item).down) +
          (item.place m (x + leftGap m span (repeated m item).width + m.arcRadius) y
            ((repeated m item).width - 2 * m.arcRadius)).picture) := by
  rw [picture_eq_add, ← add_assoc, ← ofTracks_append]
  congr 1
  exact add_zero _

/-- What is seen of a line of items: its gap tracks and the items lined up between them. -/
theorem picture_ofItems (x y span : Int) {items : List (Box α)} (h : items ≠ []) :
    ((ofItems m .line items).place m x y span).picture =
      ofTracks (gapTracks m .line x y span (ofItems m .line items).width) +
        lined m (x + leftGap m span (ofItems m .line items).width) y items := by
  obtain ⟨first, rest, rfl⟩ := List.exists_cons_of_ne_nil h
  rw [picture_eq_add, lined, led_eq_add, add_ofTracks_add, ← add_assoc, ← ofTracks_append]
  rfl

/-- A line is as wide as its led items less the gap in front of the first. -/
theorem width_ofItems (role : Role) {items : List (Box α)} (h : items ≠ []) :
    (ofItems m role items).width = ledWidth m items - m.itemGap := by
  obtain ⟨first, rest, rfl⟩ := List.exists_cons_of_ne_nil h
  rw [width_ofItems_cons, ledWidth_cons, ledWidth]
  omega

/-- Placed at its own width, a line has nothing around it. -/
theorem picture_ofItems_self (x y : Int) {items : List (Box α)} (h : items ≠ []) :
    ((ofItems m .line items).place m x y (ofItems m .line items).width).picture =
      lined m x y items := by
  rw [picture_ofItems x y _ h, gapTracks_self, leftGap_self, add_zero, ofTracks_nil, zero_add]

/-! ### Lines inside of lines -/

/-- A line at the start of a row is lined up as its own items are. -/
theorem lined_ofItems_cons (x y : Int) {items : List (Box α)} (h : items ≠ [])
    (after : List (Box α)) :
    lined m x y (ofItems m .line items :: after) = lined m x y (items ++ after) := by
  rw [lined, picture_ofItems_self _ _ h, width_ofItems .line h]
  obtain ⟨first, rest, rfl⟩ := List.exists_cons_of_ne_nil h
  have hend : x + (ledWidth m (first :: rest) - m.itemGap) =
      x + first.width + ledWidth m rest := by
    rw [ledWidth_cons]
    omega
  rw [hend, List.cons_append, lined, lined, led_append, add_assoc]

/-- A line among led items may be replaced by its items. -/
theorem led_splice (x y : Int) (before : List (Box α)) {items : List (Box α)} (h : items ≠ [])
    (after : List (Box α)) :
    led m x y (before ++ ofItems m .line items :: after) =
      led m x y (before ++ items ++ after) := by
  rw [List.append_assoc, led_append, led_append, led_eq_lined _ _ (List.cons_ne_nil _ after),
    led_eq_lined _ _ (List.append_ne_nil_of_left_ne_nil h after), lined_ofItems_cons _ _ h]

/-- A line anywhere in a row may be replaced by its items. -/
theorem lined_splice (x y : Int) (before : List (Box α)) {items : List (Box α)} (h : items ≠ [])
    (after : List (Box α)) :
    lined m x y (before ++ ofItems m .line items :: after) =
      lined m x y (before ++ items ++ after) := by
  cases before with
  | nil => exact lined_ofItems_cons x y h after
  | cons first before => simp only [List.cons_append, lined, led_splice _ _ _ h]

/-- Replacing a line among led items by its items keeps the width. -/
theorem ledWidth_splice (before : List (Box α)) {items : List (Box α)} (h : items ≠ [])
    (after : List (Box α)) :
    ledWidth m (before ++ ofItems m .line items :: after) =
      ledWidth m (before ++ items ++ after) := by
  rw [ledWidth_append, ledWidth_append, ledWidth_append, ledWidth_cons, width_ofItems .line h]
  omega

end Box

end SyntaxDiagram
