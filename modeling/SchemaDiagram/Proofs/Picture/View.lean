import SchemaDiagram.Proofs.Layout.Packing
import SchemaDiagram.Proofs.Picture.Drawing

/-! # What a picture shows

A document shows the part of the plane from the origin to its own size. In exact coordinates this reaches to the
right and down as far as any table and any point of an edge do. To the left and up it always ends at the origin.
-/
namespace SchemaDiagram

/-! ## Parts of the plane -/

namespace Rect

/-- The rectangle with all its coordinates multiplied by a factor. -/
def scale (r : Rect ℚ) (factor : ℚ) : Rect ℚ :=
  ⟨r.origin.scale factor, ⟨r.size.width * factor, r.size.height * factor⟩⟩

theorem right_scale (r : Rect ℚ) (factor : ℚ) : (r.scale factor).right = r.right * factor :=
  (add_mul r.origin.x r.size.width factor).symm

theorem bottom_scale (r : Rect ℚ) (factor : ℚ) : (r.scale factor).bottom = r.bottom * factor :=
  (add_mul r.origin.y r.size.height factor).symm

/-- The point is in the rectangle or on its border. -/
structure Contains (r : Rect ℚ) (p : Point ℚ) : Prop where
  beyond : r.origin.Beyond p
  le_right : p.x ≤ r.right
  le_bottom : p.y ≤ r.bottom

end Rect

/-- What is seen in a picture of the size. -/
def Size.view (size : Size ℚ) : Rect ℚ := ⟨Point.zero, size⟩

theorem Size.right_view (size : Size ℚ) : size.view.right = size.width := zero_add size.width

theorem Size.bottom_view (size : Size ℚ) : size.view.bottom = size.height := zero_add size.height

/-! ## The tag of the document -/

section

variable {α : Type} [Coordinate α] [Written α]

/-- The tag of a document of the size, with its view box. -/
def viewTag (size : Size α) : Tag :=
  ⟨"svg", [⟨"xmlns", "http://www.w3.org/2000/svg".toList⟩, ⟨"width", Written.write size.width⟩,
    ⟨"height", Written.write size.height⟩,
    ⟨"viewBox", "0 0 ".toList ++ Written.write size.width ++ ' ' :: Written.write size.height⟩]⟩

theorem opening_prefix_around (t : Tag) (content : Text) : t.opening <+: t.around content := by
  rw [Tag.around, List.append_assoc, List.append_assoc]
  exact List.prefix_append _ _

theorem opening_prefix_of_draw {m : Metrics α} {tables : List (PlacedTable α)} {edges : List (Edge α)} {scale : α}
    {text : Text} (h : draw m tables edges scale = .ok text) :
    ∃ size, extent m tables edges scale = .ok size ∧ (viewTag size).opening <+: text := by
  obtain ⟨size, hsize, _, -, rfl⟩ := draw_eq_ok_iff.mp h
  exact ⟨size, hsize, opening_prefix_around (viewTag size) _⟩

end

/-! ## The size of the document -/

section

variable {m : Metrics ℚ} {tables : List (PlacedTable ℚ)} {edges : List (Edge ℚ)} {scale : ℚ} {size : Size ℚ}

/-- The size that reaches to all of the points, and the padding beyond. -/
def padded (points : List (Point ℚ)) : Size ℚ :=
  ⟨Coordinate.largest (points.map Point.x) + padding, Coordinate.largest (points.map Point.y) + padding⟩

theorem extent_eq_ok_iff : extent m tables edges scale = .ok size ↔ ∃ corners : List (Point ℚ),
    (tables.mapM fun t => do
      let size ← t.effectiveSize m
      return (⟨(t.position.x + size.width) * scale, (t.position.y + size.height) * scale⟩ : Point ℚ)) = .ok corners ∧
    padded (corners ++ edges.flatMap fun e => pathPoints e.path) = size :=
  map_eq_ok_iff

theorem le_padded {points : List (Point ℚ)} {p : Point ℚ} (h : p ∈ points) :
    p.x ≤ (padded points).width ∧ p.y ≤ (padded points).height := by
  have hpadding : (0 : ℚ) ≤ padding := Nat.cast_nonneg 40
  have hx : p.x ∈ points.map Point.x := List.mem_map_of_mem h
  have hy : p.y ∈ points.map Point.y := List.mem_map_of_mem h
  exact ⟨(Coordinate.le_largest hx).trans (le_add_of_nonneg_right hpadding),
    (Coordinate.le_largest hy).trans (le_add_of_nonneg_right hpadding)⟩

/-- No table reaches over the right or the lower edge of the picture. -/
theorem corner_le_extent (h : extent m tables edges scale = .ok size) {t : PlacedTable ℚ} (ht : t ∈ tables)
    {s : Size ℚ} (hs : t.effectiveSize m = .ok s) :
    (Rect.scale ⟨t.position, s⟩ scale).right ≤ size.width ∧
      (Rect.scale ⟨t.position, s⟩ scale).bottom ≤ size.height := by
  obtain ⟨corners, hcorners, rfl⟩ := extent_eq_ok_iff.mp h
  obtain ⟨corner, hcorner, heq⟩ := exists_result_of_mapM_eq_ok hcorners ht
  rw [hs] at heq
  obtain rfl := Except.ok.inj heq
  rw [Rect.right_scale, Rect.bottom_scale]
  exact le_padded (List.mem_append_left _ hcorner)

/-- No point of an edge does. -/
theorem point_le_extent (h : extent m tables edges scale = .ok size) {e : Edge ℚ} (he : e ∈ edges) {p : Point ℚ}
    (hp : p ∈ pathPoints e.path) : p.x ≤ size.width ∧ p.y ≤ size.height := by
  obtain ⟨corners, -, rfl⟩ := extent_eq_ok_iff.mp h
  exact le_padded (List.mem_append_right _ (List.mem_flatMap.mpr ⟨e, he, hp⟩))

end
end SchemaDiagram
