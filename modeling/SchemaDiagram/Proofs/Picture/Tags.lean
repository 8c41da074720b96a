import SchemaDiagram.Proofs.Picture.Escape

/-! # Tags

A reader of tags that knows no elements: a tag goes from a bracket to the next one and its values stand between
quotes. What is written with names that have no characters of markup is read back tag by tag, whatever the
texts and the values are.
-/
namespace SchemaDiagram

/-- Where a reader of tags stands, with what it has read of the tag. -/
inductive TagPlace
  | outside
  | inTag (read : Text)
  | inValue (read : Text)

/-- The tags of a text without their values, read from a place on. There are none if a bracket opens or closes
no tag. -/
def readTagsFrom : TagPlace → Text → Option (List Text)
  | .outside, [] => some []
  | .inTag _, [] | .inValue _, [] => none
  | .outside, c :: rest =>
    if c = '<' then readTagsFrom (.inTag []) rest else if c = '>' then none else readTagsFrom .outside rest
  | .inTag read, c :: rest =>
    if c = '<' then none
    else if c = '>' then (readTagsFrom .outside rest).map (read :: ·)
    else if c = '"' then readTagsFrom (.inValue (read ++ [c])) rest
    else readTagsFrom (.inTag (read ++ [c])) rest
  | .inValue read, c :: rest =>
    if c = '<' ∨ c = '>' then none
    else if c = '"' then readTagsFrom (.inTag (read ++ [c])) rest
    else readTagsFrom (.inValue read) rest

def readTags (t : Text) : Option (List Text) := readTagsFrom .outside t

theorem isPlain_escape (t : Text) : (escape t).IsPlain := fun _ => not_isMarkup_of_mem_escape

/-! ## Inside a tag -/

/-- In a tag, `t` is read as `read`. -/
def ReadsInTag (t read : Text) : Prop :=
  ∀ before rest, readTagsFrom (.inTag before) (t ++ rest) = readTagsFrom (.inTag (before ++ read)) rest

namespace ReadsInTag

variable {s t read read' : Text}

theorem nil : ReadsInTag [] [] := fun before rest => by rw [List.append_nil, List.nil_append]

theorem append (h : ReadsInTag s read) (h' : ReadsInTag t read') : ReadsInTag (s ++ t) (read ++ read') := by
  intro before rest
  rw [List.append_assoc, h, h', List.append_assoc]

theorem flatMap {α : Type} {f g : α → Text} {l : List α} (h : ∀ a ∈ l, ReadsInTag (f a) (g a)) :
    ReadsInTag (l.flatMap f) (l.flatMap g) := by
  induction l with
  | nil => exact nil
  | cons a rest ih =>
      rw [List.flatMap_cons, List.flatMap_cons]
      exact (h a List.mem_cons_self).append (ih fun b hb => h b (List.mem_cons_of_mem a hb))

theorem plain (h : t.IsPlain) : ReadsInTag t t := by
  induction t with
  | nil => exact nil
  | cons c t ih =>
      intro before rest
      have hc := h c List.mem_cons_self
      simp only [IsMarkup, not_or] at hc
      rw [List.cons_append, readTagsFrom, if_neg hc.1, if_neg hc.2.1, if_neg hc.2.2,
        ih fun d hd => h d (List.mem_cons_of_mem c hd), List.append_assoc, List.singleton_append]

theorem value (h : t.IsPlain) : ReadsInTag ('"' :: t ++ ['"']) ['"', '"'] := by
  have hinside : ∀ before rest, readTagsFrom (.inValue before) (t ++ rest) = readTagsFrom (.inValue before) rest := by
    intro before rest
    induction t with
    | nil => rfl
    | cons c t ih =>
        have hc := h c List.mem_cons_self
        simp only [IsMarkup, not_or] at hc
        rw [List.cons_append, readTagsFrom, if_neg (not_or.mpr ⟨hc.1, hc.2.1⟩), if_neg hc.2.2,
          ih fun d hd => h d (List.mem_cons_of_mem c hd)]
  intro before rest
  rw [List.cons_append, List.cons_append, readTagsFrom, if_neg (by decide), if_neg (by decide), if_pos rfl,
    List.append_assoc, hinside, List.singleton_append, readTagsFrom, if_neg (by decide), if_pos rfl,
    List.append_assoc]
  rfl

end ReadsInTag

/-! ## Whole tags -/

/-- `t` is read as the tags `tags`, whatever follows. -/
def ReadsAsTags (t : Text) (tags : List Text) : Prop :=
  ∀ rest, readTagsFrom .outside (t ++ rest) = (readTagsFrom .outside rest).map (tags ++ ·)

namespace ReadsAsTags

variable {s t : Text} {tags tags' : List Text}

theorem readTags_eq (h : ReadsAsTags t tags) : readTags t = some tags := by
  have hnil := h []
  rw [List.append_nil] at hnil
  rw [readTags, hnil, readTagsFrom, Option.map_some, List.append_nil]

theorem nil : ReadsAsTags [] [] := fun rest => by simp

theorem append (h : ReadsAsTags s tags) (h' : ReadsAsTags t tags') : ReadsAsTags (s ++ t) (tags ++ tags') := by
  intro rest
  rw [List.append_assoc, h, h', Option.map_map]
  exact congrArg (Option.map · _) (funext fun more => (List.append_assoc tags tags' more).symm)

theorem flatMap {α : Type} {f : α → Text} {g : α → List Text} {l : List α} (h : ∀ a ∈ l, ReadsAsTags (f a) (g a)) :
    ReadsAsTags (l.flatMap f) (l.flatMap g) := by
  induction l with
  | nil => exact nil
  | cons a rest ih =>
      rw [List.flatMap_cons, List.flatMap_cons]
      exact (h a List.mem_cons_self).append (ih fun b hb => h b (List.mem_cons_of_mem a hb))

theorem plain (h : t.IsPlain) : ReadsAsTags t [] := by
  induction t with
  | nil => exact nil
  | cons c t ih =>
      intro rest
      have hc := h c List.mem_cons_self
      simp only [IsMarkup, not_or] at hc
      rw [List.cons_append, readTagsFrom, if_neg hc.1, if_neg hc.2.1]
      exact ih (fun d hd => h d (List.mem_cons_of_mem c hd)) rest

theorem tag {read : Text} (h : ReadsInTag t read) : ReadsAsTags ('<' :: t ++ ['>']) [read] := by
  intro rest
  rw [List.cons_append, List.cons_append, readTagsFrom, if_pos rfl, List.append_assoc, h, List.singleton_append,
    readTagsFrom, if_neg (by decide), if_pos rfl]
  rfl

end ReadsAsTags

/-! ## Elements -/

/-- What is left of an element without its text and the values of its attributes. -/
structure ElementForm where
  name : String
  attributes : List String
  isLeaf : Bool
  deriving DecidableEq

namespace ElementForm

/-- The opening tag without its brackets and values. -/
def opening (f : ElementForm) : Text :=
  f.name.toList ++ f.attributes.flatMap fun a => ' ' :: a.toList ++ "=\"\"".toList

def closing (f : ElementForm) : Text := '/' :: f.name.toList

/-- The tags of an element of this form. -/
def tags (f : ElementForm) : List Text := if f.isLeaf then [f.opening ++ " /".toList] else [f.opening, f.closing]

/-- The names have no characters of markup. -/
def IsPlain (f : ElementForm) : Prop := Text.IsPlain f.name.toList ∧ ∀ a ∈ f.attributes, Text.IsPlain a.toList

instance (f : ElementForm) : Decidable f.IsPlain := inferInstanceAs (Decidable (_ ∧ ∀ a ∈ f.attributes, _))

end ElementForm

def Tag.form (t : Tag) (isLeaf : Bool) : ElementForm := ⟨t.name, t.attributes.map Attribute.name, isLeaf⟩

def Element.form : Element → ElementForm
  | leaf tag => tag.form true
  | text tag _ => tag.form false

namespace Tag

variable {t : Tag} {isLeaf : Bool}

theorem readsInTag_write (h : (t.form isLeaf).IsPlain) : ReadsInTag t.write (t.form isLeaf).opening := by
  have hattributes : (t.form isLeaf).attributes.flatMap (fun a => ' ' :: a.toList ++ "=\"\"".toList) =
      t.attributes.flatMap fun a => ' ' :: a.name.toList ++ "=\"\"".toList := List.flatMap_map ..
  rw [write, ElementForm.opening, hattributes]
  refine (ReadsInTag.plain h.1).append (.flatMap fun a ha => ?_)
  have hname : Text.IsPlain (' ' :: a.name.toList ++ ['=']) := by
    have hplain := h.2 a.name (List.mem_map_of_mem ha)
    intro c hc
    simp only [List.cons_append, List.mem_cons, List.mem_append, List.not_mem_nil, or_false] at hc
    rcases hc with rfl | hc | rfl
    · decide
    · exact hplain c hc
    · decide
  have hread := (ReadsInTag.plain hname).append (ReadsInTag.value (isPlain_escape a.value))
  simpa [Attribute.write] using hread

theorem readsAsTags_opening (h : (t.form isLeaf).IsPlain) : ReadsAsTags t.opening [(t.form isLeaf).opening] :=
  .tag (readsInTag_write h)

theorem readsAsTags_closing (h : (t.form isLeaf).IsPlain) : ReadsAsTags t.closing [(t.form isLeaf).closing] := by
  refine .tag (.plain fun c hc => ?_)
  rcases List.mem_cons.mp hc with rfl | hc
  · decide
  · exact h.1 c hc

theorem readsAsTags_around {f : ElementForm} {content : Text} {tags : List Text} (hform : t.form false = f)
    (h : f.IsPlain) (hcontent : ReadsAsTags content tags) :
    ReadsAsTags (t.around content) (f.opening :: tags ++ [f.closing]) := by
  subst hform
  have hline : ReadsAsTags ['\n'] [] := .plain (by decide)
  have hread := (readsAsTags_opening h).append
    (hline.append (hcontent.append ((readsAsTags_closing h).append hline)))
  simpa [around] using hread

end Tag

theorem Element.readsAsTags_write {e : Element} (h : e.form.IsPlain) : ReadsAsTags e.write e.form.tags := by
  have hline : ReadsAsTags ['\n'] [] := .plain (by decide)
  cases e with
  | leaf tag =>
      have hend : ReadsInTag " /".toList " /".toList := .plain (by decide)
      have hread := (ReadsAsTags.tag ((Tag.readsInTag_write h).append hend)).append hline
      simpa [write, form, ElementForm.tags, Tag.form] using hread
  | text tag content =>
      have hread := (Tag.readsAsTags_opening h).append
        ((ReadsAsTags.plain (isPlain_escape content)).append ((Tag.readsAsTags_closing h).append hline))
      simpa [write, form, ElementForm.tags, Tag.form] using hread

end SchemaDiagram
