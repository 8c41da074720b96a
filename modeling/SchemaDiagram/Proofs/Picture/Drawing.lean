import SchemaDiagram.Picture.Drawing
import SchemaDiagram.Proofs.Failure
import SchemaDiagram.Proofs.Picture.Tags

/-! # No markup from schemas

All tags of a picture are written from a few forms. Names, types and colors of a schema are texts and values
between and inside these tags: they neither bring in a tag or an attribute nor take one away.
-/
namespace SchemaDiagram

/-! ## Forms -/

def rootForm : ElementForm := ⟨"svg", ["xmlns", "width", "height", "viewBox"], false⟩

def styleForm : ElementForm := ⟨"style", [], false⟩

def groupForm : ElementForm := ⟨"g", ["transform"], false⟩

def pathForm : ElementForm := ⟨"path", ["class", "data-relationship", "d"], true⟩

def arrowForm : ElementForm := ⟨"polygon", ["class", "points"], true⟩

def boxForm (colored round : Bool) : ElementForm :=
  ⟨"rect", "class" :: (if colored then ["style"] else []) ++ ["x", "y", "width", "height"] ++
    (if round then ["rx"] else []), true⟩

def nameForm : ElementForm := ⟨"text", ["class", "x", "y", "text-anchor"], false⟩

def ruleForm : ElementForm := ⟨"line", ["x1", "y1", "x2", "y2", "stroke", "stroke-width"], true⟩

def rowForm : ElementForm := ⟨"text", ["class", "x", "y", "dominant-baseline"], false⟩

/-- The forms of all elements of pictures. -/
def templates : List ElementForm :=
  [rootForm, styleForm, groupForm, pathForm, arrowForm, boxForm false true, boxForm true true,
   boxForm false false, boxForm true false, nameForm, ruleForm, rowForm]

theorem isPlain_of_mem_templates {f : ElementForm} (h : f ∈ templates) : f.IsPlain := by
  have hall : ∀ f ∈ templates, f.IsPlain := by decide
  exact hall f h

theorem boxForm_mem_templates (colored round : Bool) : boxForm colored round ∈ templates := by
  revert colored round
  decide

def formsOf (elements : List Element) : List ElementForm := elements.map Element.form

section

variable {α : Type} [Written α]

theorem Edge.form_mem_templates {e : Edge α} {f : ElementForm} (h : f ∈ formsOf e.draw) : f ∈ templates := by
  obtain ⟨element, helement, rfl⟩ := List.mem_map.mp h
  rw [Edge.draw, List.mem_cons] at helement
  rcases helement with rfl | helement
  · exact (by decide : pathForm ∈ templates)
  · obtain ⟨head, -, rfl⟩ := List.mem_map.mp helement
    exact (by decide : arrowForm ∈ templates)

theorem Edge.forms_subset_templates {edges : List (Edge α)} {f : ElementForm}
    (h : f ∈ formsOf (edges.flatMap Edge.draw)) : f ∈ templates := by
  rw [formsOf, List.map_flatMap, List.mem_flatMap] at h
  obtain ⟨e, -, hf⟩ := h
  exact form_mem_templates hf

theorem form_box (kind : String) (color : Option Text) (x y width height : α) (round : Bool) :
    (box kind color x y width height round).form = boxForm color.isSome round := by
  cases color <;> cases round <;> rfl

/-- The tags of a picture with edges and tables of these forms. -/
def documentTags (edges tables : List ElementForm) : List Text :=
  rootForm.opening ::
    (styleForm.tags ++ edges.flatMap ElementForm.tags ++
      (groupForm.opening :: tables.flatMap ElementForm.tags ++ [groupForm.closing])) ++
    [rootForm.closing]

theorem exists_template_of_mem_documentTags {edges tables : List ElementForm} (hedges : ∀ f ∈ edges, f ∈ templates)
    (htables : ∀ f ∈ tables, f ∈ templates) {tag : Text} (h : tag ∈ documentTags edges tables) :
    ∃ f ∈ templates, tag ∈ f.tags := by
  have hroot : rootForm ∈ templates := by decide
  have hstyle : styleForm ∈ templates := by decide
  have hgroup : groupForm ∈ templates := by decide
  simp only [documentTags, List.cons_append, List.mem_cons, List.mem_append, List.mem_flatMap, List.not_mem_nil,
    or_false] at h
  rcases h with rfl | ((h | ⟨f, hf, h⟩) | rfl | ⟨f, hf, h⟩ | rfl) | rfl
  · exact ⟨rootForm, hroot, List.mem_cons_self⟩
  · exact ⟨styleForm, hstyle, h⟩
  · exact ⟨f, hedges f hf, h⟩
  · exact ⟨groupForm, hgroup, List.mem_cons_self⟩
  · exact ⟨f, htables f hf, h⟩
  · exact ⟨groupForm, hgroup, by simp [ElementForm.tags, groupForm]⟩
  · exact ⟨rootForm, hroot, by simp [ElementForm.tags, rootForm]⟩

theorem readsAsTags_writeAll {elements : List Element} (h : ∀ f ∈ formsOf elements, f ∈ templates) :
    ReadsAsTags (writeAll elements) ((formsOf elements).flatMap ElementForm.tags) := by
  rw [formsOf, List.flatMap_map]
  refine .flatMap fun e he => Element.readsAsTags_write (isPlain_of_mem_templates (h _ ?_))
  exact List.mem_map_of_mem he

theorem readTags_document (size : Size α) (scale : α) {edges tables : List Element}
    (hedges : ∀ f ∈ formsOf edges, f ∈ templates) (htables : ∀ f ∈ formsOf tables, f ∈ templates) :
    readTags (document size scale edges tables) = some (documentTags (formsOf edges) (formsOf tables)) := by
  have hstyle : ReadsAsTags styleSheet.write styleForm.tags := Element.readsAsTags_write (by decide)
  have hroot : rootForm.IsPlain := by decide
  have hgroup : groupForm.IsPlain := by decide
  rw [document, documentTags]
  apply ReadsAsTags.readTags_eq
  refine Tag.readsAsTags_around (f := rootForm) ?_ hroot ((hstyle.append (readsAsTags_writeAll hedges)).append
    (Tag.readsAsTags_around (f := groupForm) ?_ hgroup (readsAsTags_writeAll htables)))
  · rfl
  · rfl

end

/-! ## Tables -/

section

variable {α : Type} [Coordinate α] {m : Metrics α} {tables tables' : List (PlacedTable α)}

/-- Tables at one place, of one size that is their own, with as many fields, and both or none with a color. What
their names, their fields, their types and their colors are is left open. -/
structure SameFrame (t t' : PlacedTable α) : Prop where
  position : t.position = t'.position
  size : t.size = t'.size
  sized : t.size.isEmpty = false
  rows : t.table.fields.length = t'.table.fields.length
  colored : t.table.color.isSome = t'.table.color.isSome

theorem isEmpty_size_of_sameFrame (h : List.Forall₂ SameFrame tables tables') :
    (∀ t ∈ tables, t.size.isEmpty = false) ∧ ∀ t ∈ tables', t.size.isEmpty = false := by
  induction h with
  | nil => exact ⟨nofun, nofun⟩
  | cons hframe _ ih =>
      exact ⟨List.forall_mem_cons.mpr ⟨hframe.sized, ih.1⟩,
        List.forall_mem_cons.mpr ⟨hframe.size ▸ hframe.sized, ih.2⟩⟩

theorem exists_extent (h : ∀ t ∈ tables, ∃ size, t.effectiveSize m = .ok size) (edges : List (Edge α)) (scale : α) :
    ∃ size, extent m tables edges scale = .ok size := by
  obtain ⟨corners, hcorners⟩ : ∃ corners : List (Point α), (tables.mapM fun t => do
      let size ← t.effectiveSize m
      return (⟨(t.position.x + size.width) * scale, (t.position.y + size.height) * scale⟩ : Point α)) = .ok corners := by
    refine exists_mapM_eq_ok fun t ht => ?_
    obtain ⟨size, hsize⟩ := h t ht
    exact ⟨_, map_eq_ok_iff.mpr ⟨size, hsize, rfl⟩⟩
  exact ⟨_, map_eq_ok_iff.mpr ⟨corners, hcorners, rfl⟩⟩

end

variable {α : Type} [Coordinate α] [Written α] {m : Metrics α} {t t' : PlacedTable α} {size : Size α}

theorem formsOf_drawHeader (m : Metrics α) (t : PlacedTable α) (size : Size α) :
    formsOf (drawHeader m t size) = boxForm t.table.color.isSome true ::
      if t.table.fields = [] then [] else [boxForm t.table.color.isSome false] := by
  simp only [drawHeader, List.isEmpty_iff]
  split <;> simp [formsOf, form_box]

theorem formsOf_draw (m : Metrics α) (t : PlacedTable α) (size : Size α) :
    formsOf (t.draw m size) = boxForm false true :: formsOf (drawHeader m t size) ++ nameForm ::
      (if t.table.fields = [] then [] else ruleForm :: formsOf (drawRows m t size 0 t.table.fields)) ++
      [boxForm false true] := by
  have hname : (drawName m t size).form = nameForm := rfl
  have hrule : (drawRule m t size).form = ruleForm := rfl
  simp only [PlacedTable.draw, List.isEmpty_iff]
  split <;> simp [formsOf, form_box, hname, hrule]

theorem eq_rowForm_of_mem_drawRows {index : Nat} {fields : List TableField} {f : ElementForm}
    (h : f ∈ formsOf (drawRows m t size index fields)) : f = rowForm := by
  induction fields generalizing index with
  | nil => cases h
  | cons field rest ih =>
      simp only [drawRows] at h
      split at h
      · cases h
      · rcases List.mem_cons.mp h with hrow | hrest
        · exact hrow
        · exact ih hrest

theorem PlacedTable.form_mem_templates {f : ElementForm} (h : f ∈ formsOf (t.draw m size)) : f ∈ templates := by
  have hname : nameForm ∈ templates := by decide
  have hrule : ruleForm ∈ templates := by decide
  have hrow : rowForm ∈ templates := by decide
  rw [formsOf_draw, formsOf_drawHeader] at h
  split at h
  · simp only [List.cons_append, List.nil_append, List.mem_cons, List.not_mem_nil, or_false] at h
    rcases h with rfl | rfl | rfl | rfl
    · exact boxForm_mem_templates false true
    · exact boxForm_mem_templates _ true
    · exact hname
    · exact boxForm_mem_templates false true
  · simp only [List.cons_append, List.nil_append, List.mem_cons, List.mem_append, List.not_mem_nil, or_false] at h
    rcases h with rfl | rfl | rfl | rfl | rfl | hrows | rfl
    · exact boxForm_mem_templates false true
    · exact boxForm_mem_templates _ true
    · exact boxForm_mem_templates _ false
    · exact hname
    · exact hrule
    · rwa [eq_rowForm_of_mem_drawRows hrows]
    · exact boxForm_mem_templates false true

theorem formsOf_drawRows_eq (hposition : t.position = t'.position) {fields fields' : List TableField}
    (hlength : fields.length = fields'.length) (index : Nat) :
    formsOf (drawRows m t size index fields) = formsOf (drawRows m t' size index fields') := by
  induction fields generalizing fields' index with
  | nil => rw [List.length_eq_zero_iff.mp hlength.symm]; rfl
  | cons field rest ih =>
      cases fields' with
      | nil => cases hlength
      | cons field' rest' =>
          simp only [drawRows, hposition]
          split
          · rfl
          · exact congrArg (rowForm :: ·) (ih (Nat.succ.inj hlength) (index + 1))

theorem SameFrame.formsOf_draw_eq (h : SameFrame t t') :
    formsOf (t.draw m t.size) = formsOf (t'.draw m t'.size) := by
  have hnil : t.table.fields = [] ↔ t'.table.fields = [] := by
    rw [← List.length_eq_zero_iff, h.rows, List.length_eq_zero_iff]
  simp only [formsOf_draw, formsOf_drawHeader, h.size, h.colored, hnil, formsOf_drawRows_eq h.position h.rows]

/-! ## Pictures -/

section

variable {tables tables' : List (PlacedTable α)} {edges : List (Edge α)} {scale : α} {text : Text}

theorem draw_eq_ok_iff :
    draw m tables edges scale = .ok text ↔ ∃ size, extent m tables edges scale = .ok size ∧
      ∃ drawn, (tables.mapM fun t => do return t.draw m (← t.effectiveSize m)) = .ok drawn ∧
      document size scale (edges.flatMap Edge.draw) drawn.flatten = text := by
  simp only [draw, bind_eq_ok_iff, pure, Except.pure, Except.ok.injEq]

/-- There is a picture exactly if every table has a size to be drawn with. -/
theorem exists_draw_iff :
    (∃ text, draw m tables edges scale = .ok text) ↔ ∀ t ∈ tables, ∃ size, t.effectiveSize m = .ok size := by
  constructor
  · rintro ⟨text, htext⟩ t ht
    obtain ⟨-, -, drawn, hdrawn, -⟩ := draw_eq_ok_iff.mp htext
    obtain ⟨elements, -, helements⟩ := exists_result_of_mapM_eq_ok hdrawn ht
    obtain ⟨size, hsize, -⟩ := map_eq_ok_iff.mp helements
    exact ⟨size, hsize⟩
  · intro h
    obtain ⟨size, hsize⟩ := exists_extent h edges scale
    obtain ⟨drawn, hdrawn⟩ :
        ∃ drawn, (tables.mapM fun t => do return t.draw m (← t.effectiveSize m)) = .ok drawn := by
      refine exists_mapM_eq_ok fun t ht => ?_
      obtain ⟨size, hsize⟩ := h t ht
      exact ⟨_, map_eq_ok_iff.mpr ⟨size, hsize, rfl⟩⟩
    exact ⟨_, draw_eq_ok_iff.mpr ⟨size, hsize, drawn, hdrawn, rfl⟩⟩

/-- Every bracket of a picture is one of a tag of the templates. -/
theorem exists_readTags_of_draw (h : draw m tables edges scale = .ok text) :
    ∃ tags, readTags text = some tags ∧ ∀ tag ∈ tags, ∃ f ∈ templates, tag ∈ f.tags := by
  obtain ⟨size, -, drawn, hdrawn, rfl⟩ := draw_eq_ok_iff.mp h
  have htables : ∀ f ∈ formsOf drawn.flatten, f ∈ templates := by
    intro f hf
    rw [formsOf, List.map_flatten, List.mem_flatten] at hf
    obtain ⟨forms, hforms, hf⟩ := hf
    obtain ⟨elements, helements, rfl⟩ := List.mem_map.mp hforms
    obtain ⟨t, -, ht⟩ := exists_argument_of_mapM_eq_ok hdrawn helements
    obtain ⟨size, -, rfl⟩ := map_eq_ok_iff.mp ht
    exact PlacedTable.form_mem_templates hf
  exact ⟨_, readTags_document size scale (fun _ => Edge.forms_subset_templates) htables,
    fun _ => exists_template_of_mem_documentTags (fun _ => Edge.forms_subset_templates) htables⟩

/-- Tables with sizes of their own are all drawn with these. -/
theorem readTags_draw_of_sized (h : ∀ t ∈ tables, t.size.isEmpty = false) (edges : List (Edge α)) (scale : α) :
    ∃ text, draw m tables edges scale = .ok text ∧
      readTags text = some (documentTags (formsOf (edges.flatMap Edge.draw))
        (tables.flatMap fun t => formsOf (t.draw m t.size))) := by
  have heffective : ∀ t ∈ tables, t.effectiveSize m = .ok t.size := by
    intro t ht
    rw [PlacedTable.effectiveSize, h t ht]
    rfl
  obtain ⟨size, hsize⟩ := exists_extent (fun t ht => ⟨t.size, heffective t ht⟩) edges scale
  have hdrawn : (tables.mapM fun t => do return t.draw m (← t.effectiveSize m)) =
      .ok (tables.map fun t => t.draw m t.size) :=
    mapM_eq_ok_map fun t ht => map_eq_ok_iff.mpr ⟨t.size, heffective t ht, rfl⟩
  refine ⟨_, draw_eq_ok_iff.mpr ⟨size, hsize, _, hdrawn, rfl⟩, ?_⟩
  have hforms : formsOf (tables.map fun t => t.draw m t.size).flatten =
      tables.flatMap fun t => formsOf (t.draw m t.size) := by
    rw [formsOf, List.map_flatten, List.map_map]
    rfl
  rw [readTags_document size scale (fun _ => Edge.forms_subset_templates), hforms]
  rw [hforms]
  intro f hf
  obtain ⟨t, -, hf⟩ := List.mem_flatMap.mp hf
  exact PlacedTable.form_mem_templates hf

/-- What tables are called and hold makes no difference to the tags. -/
theorem flatMap_formsOf_eq (h : List.Forall₂ SameFrame tables tables') :
    (tables.flatMap fun t => formsOf (t.draw m t.size)) = tables'.flatMap fun t => formsOf (t.draw m t.size) := by
  induction h with
  | nil => rfl
  | cons hframe _ ih => rw [List.flatMap_cons, List.flatMap_cons, hframe.formsOf_draw_eq, ih]

end

/-- Texts of a schema bring no markup into a picture. Escaped, they have no brackets and no quotes, and their
ampersands start entities from which they are read back. All brackets of a picture belong to tags of the
templates, and pictures of tables that differ in their texts only have the same tags with the same attributes. -/
theorem draw_injects_no_markup :
    (∀ t : Text, (∀ c ∈ escape t, c ≠ '<' ∧ c ≠ '>' ∧ c ≠ '"') ∧
      (∀ before rest, escape t = before ++ '&' :: rest → ∃ e ∈ entities, e.2 <+: rest) ∧ unescape (escape t) = t) ∧
    ∀ (α : Type) [Coordinate α] [Written α] (m : Metrics α) (edges : List (Edge α)) (scale : α),
      (∀ tables, ((∃ text, draw m tables edges scale = .ok text) ↔
          ∀ t ∈ tables, ∃ size, t.effectiveSize m = .ok size) ∧
        ∀ text, draw m tables edges scale = .ok text →
          ∃ tags, readTags text = some tags ∧ ∀ tag ∈ tags, ∃ f ∈ templates, tag ∈ f.tags) ∧
      ∀ tables tables', List.Forall₂ SameFrame tables tables' →
        ∃ text text' tags, draw m tables edges scale = .ok text ∧ draw m tables' edges scale = .ok text' ∧
          readTags text = some tags ∧ readTags text' = some tags := by
  refine ⟨fun t => ⟨fun c hc => ?_, fun _ _ => exists_entity_of_escape_eq, unescape_escape t⟩,
    fun α _ _ m edges scale => ⟨fun tables => ⟨exists_draw_iff, fun _ => exists_readTags_of_draw⟩,
      fun tables tables' h => ?_⟩⟩
  · simpa [IsMarkup] using not_isMarkup_of_mem_escape hc
  · obtain ⟨hsized, hsized'⟩ := isEmpty_size_of_sameFrame h
    obtain ⟨text, htext, htags⟩ := readTags_draw_of_sized (m := m) hsized edges scale
    obtain ⟨text', htext', htags'⟩ := readTags_draw_of_sized (m := m) hsized' edges scale
    exact ⟨text, text', _, htext, htext', htags, by rw [htags', flatMap_formsOf_eq h]⟩

def harmlessTable : PlacedTable Float where
  table :=
    { name := "users".toList, fields := [⟨"id".toList, "int".toList, true, false, false, false, none, none⟩],
      color := some "#fff".toList }
  position := ⟨30, 40⟩
  size := ⟨120, 60⟩

/-- A table that tries to close its elements and to bring in others. -/
def hostileTable : PlacedTable Float where
  table :=
    { name := "</text><script>&lt;".toList,
      fields := [⟨"\" onload=\"x()".toList, "]]></svg>".toList, false, false, false, false, none, none⟩],
      color := some "red\"><g id=\"".toList }
  position := ⟨30, 40⟩
  size := ⟨120, 60⟩

theorem draw_injects_no_markup_hostileTable :
    List.Forall₂ SameFrame [harmlessTable] [hostileTable] ∧
    ∃ text text' tags, draw Metrics.standard [harmlessTable] [] 1 = .ok text ∧
      draw Metrics.standard [hostileTable] [] 1 = .ok text' ∧ readTags text = some tags ∧ readTags text' = some tags ∧
      ∀ tag ∈ tags, ∃ f ∈ templates, tag ∈ f.tags := by
  have hframes : List.Forall₂ SameFrame [harmlessTable] [hostileTable] :=
    .cons ⟨rfl, rfl, by decide +kernel, rfl, rfl⟩ .nil
  obtain ⟨htemplates, hsame⟩ := draw_injects_no_markup.2 Float Metrics.standard [] 1
  obtain ⟨text, text', tags, htext, htext', htags, htags'⟩ := hsame _ _ hframes
  obtain ⟨read, hread, hall⟩ := (htemplates [hostileTable]).2 text' htext'
  obtain rfl := Option.some.inj (htags'.symm.trans hread)
  exact ⟨hframes, text, text', tags, htext, htext', htags, htags', hall⟩

end SchemaDiagram
