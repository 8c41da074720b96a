import SchemaDiagram.Proofs.Writing.Document

/-! # Reading written declarations

Each line of a written schema is read as the declaration it was written for, with all that its settings
say.
-/
namespace SchemaDiagram

open Segment

/-! ## Items -/

namespace Segment

theorem hasEnds_singleton {p : Segment} (h : p ≠ space) : HasEnds [p] := ⟨⟨p, [], rfl, h⟩, ⟨[], p, rfl, h⟩⟩

theorem hasEnds_phrase {ws : List Text} (h : ws ≠ []) : HasEnds (phrase ws) := by
  induction ws using phrase.induct with
  | case1 => exact absurd rfl h
  | case2 w => exact hasEnds_singleton nofun
  | case3 w more hne ih =>
      obtain ⟨init, p, hp, hps⟩ := (ih (fun hnil => hne hnil)).last
      rw [phrase]
      · exact ⟨⟨_, _, rfl, nofun⟩, ⟨word w :: space :: init, p, by simp [hp], hps⟩⟩
      · exact hne

theorem mem_phrase {ws : List Text} {p : Segment} (h : p ∈ phrase ws) : p = space ∨ ∃ w ∈ ws, p = word w := by
  induction ws using phrase.induct with
  | case1 => simp [phrase] at h
  | case2 w => simp_all [phrase]
  | case3 w more hne ih =>
      rw [phrase] at h
      · simp only [List.mem_cons] at h
        rcases h with rfl | rfl | h
        · exact .inr ⟨w, List.mem_cons_self, rfl⟩
        · exact .inl rfl
        · rcases ih h with rfl | ⟨v, hv, rfl⟩
          · exact .inl rfl
          · exact .inr ⟨v, List.mem_cons_of_mem w hv, rfl⟩
      · exact hne

theorem readable_phrase {ws : List Text} (h : ∀ w ∈ ws, w.IsWord) : Readable (phrase ws) := by
  induction ws using phrase.induct with
  | case1 => exact readable_nil
  | case2 w => exact readable_singleton (p := word w) (h w List.mem_cons_self)
  | case3 w more hne ih =>
      have hmore := (ih fun v hv => h v (List.mem_cons_of_mem w hv)).cons (p := space) trivial
      rw [phrase]
      · exact (readable_singleton (p := word w) (h w List.mem_cons_self)).append hmore (by simp [IsBreak])
      · exact hne

theorem oneLine_quote {content : Text} (h : content.OneLine) : (Text.quote content).OneLine := by
  intro hn
  simp only [Text.quote, List.mem_cons, List.mem_append, List.not_mem_nil, or_false] at hn
  rcases hn with hn | hn | hn
  · cases hn
  · rcases Text.mem_escape hn with hn | hn
    · exact h hn
    · cases hn
  · cases hn

/-- Only a string can bring a line feed into a line. -/
theorem oneLine_line {ps : List Segment} (hw : ∀ p ∈ ps, p.WellFormed)
    (hs : ∀ content, str content ∈ ps → content.OneLine) : (line ps).OneLine := by
  intro hmem
  obtain ⟨p, hp, hn⟩ := List.mem_flatMap.mp hmem
  cases p with
  | word w =>
      have hword := Text.IsWord.isWordChar (hw _ hp) hn
      exact Bool.false_ne_true ((isWordChar_of_isBlank (by decide)).symm.trans hword)
  | str content => exact oneLine_quote (hs content hp) hn
  | op kind => cases kind <;> simp [text, RelationKind.symbol] at hn
  | _ => simp [text] at hn

/-- The setting that an item is read as, wherever it stands. -/
def setting (item : List Segment) : Setting := ⟨line item, 0, 0⟩

/-- Where settings stand makes no difference to what they say. -/
theorem foldl_setting {β : Type} {step : β → Setting → β} (hstep : ∀ b s, step b s = step b ⟨s.text, 0, 0⟩)
    {found : List Setting} {list : List (List Segment)} (h : found.map Setting.text = list.map line) (b : β) :
    found.foldl step b = list.foldl (fun b item => step b (setting item)) b := by
  have htexts : found.foldl step b = (found.map Setting.text).foldl (fun b t => step b ⟨t, 0, 0⟩) b := by
    rw [List.foldl_map]
    exact congrArg (List.foldl · b found) (funext fun b => funext (hstep b))
  rw [htexts, h, List.foldl_map]
  rfl

structure IsSetting (item : List Segment) : Prop where
  isItem : IsItem item
  readable : Readable item
  oneLine : ∀ content, str content ∈ item → content.OneLine

theorem isSetting_phrase {ws : List Text} (hne : ws ≠ []) (h : ∀ w ∈ ws, w.IsWord) :
    IsSetting (phrase ws) := by
  refine ⟨⟨hasEnds_phrase hne, ?_⟩, readable_phrase h, ?_⟩
  · intro p hp
    rcases mem_phrase hp with rfl | ⟨w, -, rfl⟩ <;> trivial
  · intro content hp
    rcases mem_phrase hp with hp | ⟨w, -, hp⟩ <;> cases hp

theorem isSetting_keyed {key : String} {value : List Segment} (hk : IsKey key) (hv : IsSetting value) :
    IsSetting (keyed key value) := by
  refine ⟨isItem_keyed hv.isItem.toHasEnds hv.isItem.plain, readable_keyed hk hv.readable, ?_⟩
  intro content hp
  simp only [keyed, List.mem_cons, reduceCtorEq, false_or] at hp
  exact hv.oneLine content hp

theorem isSetting_word {w : Text} (h : w.IsWord) : IsSetting [word w] :=
  ⟨⟨hasEnds_singleton nofun, by simp [IsPlain]⟩, readable_singleton (p := word w) h, by simp⟩

theorem isSetting_str {content : Text} (h : content.OneLine) : IsSetting [str content] :=
  ⟨⟨hasEnds_singleton nofun, by simp [IsPlain]⟩, readable_singleton trivial, by simpa using h⟩

theorem isSetting_flagItem {given : Bool} {words : List String} (hne : words ≠ [])
    (h : ∀ w ∈ words, Text.IsWord w.toList) : ∀ item ∈ flagItem given words, IsSetting item := by
  intro item hi
  cases given with
  | false => simp [flagItem] at hi
  | true =>
      obtain rfl := List.mem_singleton.mp hi
      refine isSetting_phrase (by simpa using hne) ?_
      intro w hw
      obtain ⟨v, hv, rfl⟩ := List.mem_map.mp hw
      exact h v hv

theorem isSetting_keyedItem {α : Type} {key : String} {value : α → List Segment} {given : Option α} (hk : IsKey key)
    (h : ∀ a ∈ given, IsSetting (value a)) : ∀ item ∈ keyedItem key value given, IsSetting item := by
  intro item hi
  rw [keyedItem, Option.mem_toList] at hi
  obtain ⟨a, ha, rfl⟩ := Option.map_eq_some_iff.mp hi
  exact isSetting_keyed hk (h a ha)

end Segment

/-! ## Statements -/

namespace Segment

/-- A line that is one statement. -/
structure IsStatement (ps : List Segment) : Prop extends HasEnds ps where
  readable : Readable ps
  oneLine : ∀ content, str content ∈ ps → content.OneLine

theorem IsStatement.oneLine_line {ps : List Segment} (h : IsStatement ps) : (line ps).OneLine :=
  Segment.oneLine_line h.readable.wellFormed h.oneLine

theorem str_mem_bracketed {content : Text} {list : List (List Segment)} (h : str content ∈ bracketed list) :
    ∃ item ∈ list, str content ∈ item := by
  have hitems : ∀ list, str content ∈ items list → ∃ item ∈ list, str content ∈ item := by
    intro list h
    induction list using items.induct with
    | case1 => simp [items] at h
    | case2 item => simpa [items] using h
    | case3 item more hne ih =>
        rw [items] at h
        · simp only [List.mem_append, List.mem_cons, reduceCtorEq, false_or] at h
          rcases h with h | h
          · exact ⟨item, List.mem_cons_self, h⟩
          · obtain ⟨i, hi, hs⟩ := ih h
            exact ⟨i, List.mem_cons_of_mem item hi, hs⟩
        · exact hne
  cases list with
  | nil => cases h
  | cons item more => exact hitems _ (by simpa [bracketed] using h)

theorem isStatement_append_bracketed {ps : List Segment} {list : List (List Segment)} (hends : HasEnds ps)
    (hread : Readable (ps ++ bracketed list)) (hps : ∀ content, str content ∈ ps → content.OneLine)
    (hlist : ∀ item ∈ list, IsSetting item) : IsStatement (ps ++ bracketed list) := by
  refine ⟨hasEnds_append_bracketed hends list, hread, fun content hc => ?_⟩
  rcases List.mem_append.mp hc with hc | hc
  · exact hps content hc
  · obtain ⟨item, hi, hs⟩ := str_mem_bracketed hc
    exact (hlist item hi).oneLine content hs

end Segment

/-! ## Fields -/

theorem isSetting_inlineItem {r : Relationship} (h : r.target.table.OneLine ∧ r.target.field.OneLine) :
    IsSetting r.inlineItem := by
  refine isSetting_keyed (by decide) ⟨⟨⟨⟨_, _, rfl, nofun⟩, ?_⟩, ?_⟩, readable_opTarget _ _ _, ?_⟩
  · exact ⟨[op r.kind, space, str r.target.table, dot], str r.target.field, rfl, nofun⟩
  · simp [fieldName, IsPlain]
  · intro content hc
    simp only [fieldName, List.mem_cons, reduceCtorEq, str.injEq, List.not_mem_nil, or_false, false_or] at hc
    rcases hc with rfl | rfl
    · exact h.1
    · exact h.2

namespace TableField

theorem isSetting_items {f : TableField} (h : f.Writable) {refs : List Relationship}
    (hrefs : ∀ r ∈ refs, r.Writable) : ∀ item ∈ f.items refs, IsSetting item := by
  intro item hi
  simp only [items, List.mem_append] at hi
  have hkey : IsKey "default" ∧ IsKey "note" := by decide
  rcases hi with ((((((hi | hi) | hi) | hi) | hi) | hi) | hi)
  · exact isSetting_flagItem (by simp) (by decide) item hi
  · exact isSetting_flagItem (by simp) (by decide) item hi
  · exact isSetting_flagItem (by simp) (by decide) item hi
  · exact isSetting_flagItem (by simp) (by decide) item hi
  · exact isSetting_keyedItem hkey.1 (fun w hw => isSetting_word (h.default w hw).isWord) item hi
  · exact isSetting_keyedItem hkey.2 (fun n hn => isSetting_str (h.note n hn)) item hi
  · obtain ⟨r, hr, rfl⟩ := List.mem_map.mp hi
    exact isSetting_inlineItem (hrefs r hr).target

def withItem (f : TableField) (item : List Segment) : TableField := f.withSetting (setting item)

theorem withItem_keyed {f : TableField} {key : String} {value : List Segment} (hk : IsKey key) :
    f.withItem (keyed key value) =
      if key = "note" then { f with note := (setting (keyed key value)).string? }
      else if key = "default" then { f with default := (setting (keyed key value)).value? } else f := by
  have hkey : (setting (keyed key value)).key? = some key.toList := key?_keyed hk rfl
  simp only [withItem, withSetting, hkey, String.toList_inj]

theorem foldl_flagItem (f : TableField) (given : Bool) {words : List String} (flag : Text)
    (hkey : (setting (phrase (words.map String.toList))).key? = none)
    (hflag : (setting (phrase (words.map String.toList))).normalized = flag) :
    (flagItem given words).foldl withItem f = { f with
      isPrimaryKey := f.isPrimaryKey ||
        (given && (Text.hasPart "pk".toList flag || Text.hasPart "primary key".toList flag))
      notNull := f.notNull || (given && flag == "not null".toList)
      unique := f.unique || (given && flag == "unique".toList)
      increment := f.increment || (given && (flag == "increment".toList || flag == "auto_increment".toList)) } := by
  cases given with
  | false => simp [flagItem]
  | true => simp [flagItem, withItem, withSetting, hkey, hflag, Bool.or_assoc]

theorem foldl_pk (f : TableField) (given : Bool) :
    (flagItem given ["pk"]).foldl withItem f = { f with isPrimaryKey := f.isPrimaryKey || given } := by
  rw [foldl_flagItem f given "pk".toList (by decide) (by decide)]
  cases given <;> simp [Text.hasPart]

theorem foldl_notNull (f : TableField) (given : Bool) :
    (flagItem given ["not", "null"]).foldl withItem f = { f with notNull := f.notNull || given } := by
  rw [foldl_flagItem f given "not null".toList (by decide) (by decide)]
  cases given <;> simp [Text.hasPart]

theorem foldl_unique (f : TableField) (given : Bool) :
    (flagItem given ["unique"]).foldl withItem f = { f with unique := f.unique || given } := by
  rw [foldl_flagItem f given "unique".toList (by decide) (by decide)]
  cases given <;> simp [Text.hasPart]

theorem foldl_increment (f : TableField) (given : Bool) :
    (flagItem given ["increment"]).foldl withItem f = { f with increment := f.increment || given } := by
  rw [foldl_flagItem f given "increment".toList (by decide) (by decide)]
  cases given <;> simp [Text.hasPart]

theorem foldl_default (f : TableField) {given : Option Text} (h : ∀ w ∈ given, w.IsIdentifier) :
    (keyedItem "default" (fun w => [word w]) given).foldl withItem f = { f with default := given.or f.default } := by
  cases given with
  | none => rfl
  | some w =>
      have hkey : IsKey "default" := by decide
      have hw := (h w rfl).isWord
      have hvalue : (setting (keyed "default" [word w])).value? = some (line [word w]) :=
        value?_keyed hkey (isSetting_word hw).readable.wellFormed (hasEnds_singleton nofun) rfl
      simp [keyedItem, withItem_keyed hkey, hvalue, text]

theorem foldl_note (f : TableField) (given : Option Text) :
    (keyedItem "note" (fun n => [str n]) given).foldl withItem f = { f with note := given.or f.note } := by
  cases given with
  | none => rfl
  | some n =>
      have hkey : IsKey "note" := by decide
      have hstring : (setting (keyed "note" [str n])).string? = some n := string?_keyed hkey rfl
      simp [keyedItem, withItem_keyed hkey, hstring]

theorem foldl_inlineItem (f : TableField) (refs : List Relationship) :
    (refs.map Relationship.inlineItem).foldl withItem f = f := by
  induction refs with
  | nil => rfl
  | cons r refs ih =>
      have hkey : IsKey "ref" := by decide
      rw [List.map_cons, List.foldl_cons, Relationship.inlineItem, withItem_keyed hkey]
      exact ih

theorem foldl_items {f : TableField} (h : f.Writable) (refs : List Relationship) :
    (f.items refs).foldl withItem { name := f.name, dataType := f.dataType } = f := by
  simp only [items, List.foldl_append, foldl_pk, foldl_notNull, foldl_unique, foldl_increment,
    foldl_default _ h.default, foldl_note, foldl_inlineItem, Bool.false_or, Option.or_none]

def itemRelationship (source : Endpoint) (item : List Segment) : Option Relationship :=
  if (setting item).hasKey "ref" then
    (inlineRef? (line item)).map fun (kind, target) =>
      { source, kind, target := Endpoint.ofName target, origin := .inline }
  else none

theorem inlineRelationships_eq {head : FieldHead} {list : List (List Segment)}
    (h : head.settings.map Setting.text = list.map line) (table : Text) :
    inlineRelationships table head = list.filterMap (itemRelationship ⟨table, head.name⟩) := by
  have htexts : inlineRelationships table head = (head.settings.map Setting.text).filterMap fun t =>
      if Setting.hasKey ⟨t, 0, 0⟩ "ref" then
        (inlineRef? t).map fun (kind, target) =>
          { source := ⟨table, head.name⟩, kind, target := Endpoint.ofName target, origin := .inline }
      else none := by
    rw [List.filterMap_map]
    rfl
  rw [htexts, h, List.filterMap_map]
  rfl

theorem itemRelationship_keyed {source : Endpoint} {key : String} {value : List Segment} (hk : IsKey key)
    (hne : key ≠ "ref") : itemRelationship source (keyed key value) = none := by
  have hkey : (setting (keyed key value)).hasKey "ref" = decide (key = "ref") := hasKey_keyed hk rfl "ref"
  simp [itemRelationship, hkey, hne]

theorem filterMap_flagItem {source : Endpoint} (given : Bool) (words : List String)
    (h : (setting (phrase (words.map String.toList))).hasKey "ref" = false) :
    (flagItem given words).filterMap (itemRelationship source) = [] := by
  cases given <;> simp [flagItem, itemRelationship, h]

theorem filterMap_keyedItem {α : Type} {source : Endpoint} {key : String} {value : α → List Segment} {given : Option α}
    (hk : IsKey key) (hne : key ≠ "ref") :
    (keyedItem key value given).filterMap (itemRelationship source) = [] := by
  cases given <;> simp [keyedItem, itemRelationship_keyed hk hne]

theorem itemRelationship_inlineItem {r : Relationship} (h : r.Writable) (ho : r.origin = .inline) :
    itemRelationship r.source r.inlineItem = some r := by
  have hkey : IsKey "ref" := by decide
  have hhas : (setting r.inlineItem).hasKey "ref" = true := hasKey_keyed hkey rfl "ref"
  obtain ⟨n, hn, htable, hfield⟩ := inlineRef?_line r.kind r.target.table r.target.field
  have hline : inlineRef? (line r.inlineItem) = some (r.kind, n) := hn
  obtain ⟨hname, hdelete, hupdate⟩ := h.inline ho
  rw [itemRelationship, if_pos hhas, hline]
  cases r
  simp_all [Endpoint.ofName]

theorem filterMap_items {f : TableField} {source : Endpoint} {refs : List Relationship}
    (hrefs : ∀ r ∈ refs, r.Writable ∧ r.origin = .inline ∧ r.source = source) :
    (f.items refs).filterMap (itemRelationship source) = refs := by
  have hdefault : IsKey "default" := by decide
  have hnote : IsKey "note" := by decide
  have hinline : (refs.map Relationship.inlineItem).filterMap (itemRelationship source) = refs := by
    induction refs with
    | nil => rfl
    | cons r refs ih =>
        obtain ⟨hw, ho, rfl⟩ := hrefs r List.mem_cons_self
        rw [List.map_cons, List.filterMap_cons, itemRelationship_inlineItem hw ho,
          ih fun q hq => hrefs q (List.mem_cons_of_mem r hq)]
  simp only [items, List.filterMap_append, filterMap_flagItem _ ["pk"] (by decide),
    filterMap_flagItem _ ["not", "null"] (by decide), filterMap_flagItem _ ["unique"] (by decide),
    filterMap_flagItem _ ["increment"] (by decide), filterMap_keyedItem hdefault (by decide),
    filterMap_keyedItem hnote (by decide), hinline, List.nil_append]

end TableField

/-! ## Lines that start with a string -/

theorem noteLine?_str {content : Text} {ps : List Segment} (h : Readable (str content :: ps)) :
    noteLine? (line (str content :: ps)) = none := by
  rw [noteLine?, tokens_line h]
  simp only [lexemes, token?]
  split
  · next heq =>
      obtain ⟨rfl, -⟩ := List.cons.inj heq
      rfl
  · rfl

theorem refStatement_str {content : Text} {ps : List Segment} (h : Readable (str content :: ps)) :
    RefStatement.read? (line (str content :: ps)) = none := by
  rw [RefStatement.read?, tokens_line h]
  rfl

namespace TableField

variable {f : TableField} {refs : List Relationship} {table : Text}

theorem isStatement_segments (h : f.Writable) (hrefs : ∀ r ∈ refs, r.Writable) : IsStatement (f.segments refs) := by
  have hitems := isSetting_items h hrefs
  refine isStatement_append_bracketed ⟨⟨_, _, rfl, nofun⟩, ⟨[_, _], _, rfl, nofun⟩⟩
    (readable_fieldLine f.name h.dataType fun item hi => (hitems item hi).readable) ?_ hitems
  simpa using h.name.2

theorem read_line (h : f.Writable) (hrefs : ∀ r ∈ refs, r.Writable ∧ r.origin = .inline ∧ r.source = ⟨table, f.name⟩) :
    ∃ head, TableLine.read (line (f.segments refs)) = .field head ∧ TableField.ofHead head = f ∧
      inlineRelationships table head = refs := by
  have hitems := isSetting_items h fun r hr => (hrefs r hr).1
  have hread : Readable (f.segments refs) := (isStatement_segments h fun r hr => (hrefs r hr).1).readable
  obtain ⟨head, hhead, hname, htype, htexts⟩ := FieldHead.read?_line h.name.1 h.dataType
    fun item hi => ⟨(hitems item hi).isItem, (hitems item hi).readable⟩
  have hline : FieldHead.read? (line (f.segments refs)) = some head := hhead
  refine ⟨head, ?_, ?_, ?_⟩
  · have hnote : noteLine? (line (f.segments refs)) = none := noteLine?_str hread
    have href : RefStatement.read? (line (f.segments refs)) = none := refStatement_str hread
    simp [TableLine.read, hnote, href, hline]
  · rw [ofHead, foldl_setting (fun _ _ => rfl) htexts, hname, htype]
    exact foldl_items h refs
  · rw [inlineRelationships_eq htexts, hname, filterMap_items hrefs]

theorem refStatement_line (h : f.Writable) (hrefs : ∀ r ∈ refs, r.Writable) :
    RefStatement.read? (line (f.segments refs)) = none :=
  refStatement_str (isStatement_segments h hrefs).readable

end TableField

/-! ## Tables -/

theorem IsColor.isWord {c : Text} (h : IsColor c) : c.IsWord := by
  refine ⟨?_, h.2⟩
  rintro rfl
  cases h.1

namespace Table

variable {t : Table}

theorem isSetting_items (h : t.Writable) : ∀ item ∈ t.items, IsSetting item := by
  intro item hi
  rcases List.mem_append.mp hi with hi | hi
  · exact isSetting_keyedItem (by decide)
      (fun c hc => isSetting_word (h.color c hc).isWord) item hi
  · exact isSetting_keyedItem (by decide) (fun n hn => isSetting_str (h.note n hn)) item hi

theorem isStatement_header (h : t.Writable) : IsStatement t.header := by
  refine isStatement_append_bracketed ⟨⟨_, _, rfl, nofun⟩, ⟨[_, _], _, rfl, nofun⟩⟩
    (readable_tableLine t.name fun item hi => (isSetting_items h item hi).readable) ?_ (isSetting_items h)
  simpa [headline] using h.name.2

def withItem (t : Table) (item : List Segment) : Table := t.withSetting (setting item)

theorem withItem_keyed {key : String} {value : List Segment} (hk : IsKey key) :
    t.withItem (keyed key value) =
      if key = "headercolor" then { t with color := (setting (keyed key value)).value? }
      else if key = "note" then { t with note := (setting (keyed key value)).string? } else t := by
  have hkey : ∀ other, (setting (keyed key value)).hasKey other = decide (key = other) := hasKey_keyed hk rfl
  simp only [withItem, withSetting, hkey, decide_eq_true_eq]

theorem foldl_items (h : t.Writable) : t.items.foldl withItem { name := t.name } = { t with fields := [] } := by
  have hcolor : ∀ t : Table, ∀ c : Text, c.IsWord →
      t.withItem (keyed "headercolor" [word c]) = { t with color := some c } := by
    intro t c hc
    have hkey : IsKey "headercolor" := by decide
    have hvalue : (setting (keyed "headercolor" [word c])).value? = some (line [word c]) :=
      value?_keyed hkey (isSetting_word hc).readable.wellFormed (hasEnds_singleton nofun) rfl
    simp [withItem_keyed hkey, hvalue, text]
  have hnote : ∀ t : Table, ∀ n, t.withItem (keyed "note" [str n]) = { t with note := some n } := by
    intro t n
    have hkey : IsKey "note" := by decide
    have hstring : (setting (keyed "note" [str n])).string? = some n := string?_keyed hkey rfl
    simp [withItem_keyed hkey, hstring]
  have hother := h.otherName
  have hwf := fun c hc => (h.color c hc).isWord
  obtain ⟨name, otherName, fields, note, color⟩ := t
  obtain rfl : otherName = none := hother
  cases color with
  | none => cases note <;> simp [items, keyedItem, hnote]
  | some c => cases note <;> simp [items, keyedItem, hnote, hcolor _ c (hwf c rfl)]

theorem header_line (h : t.Writable) :
    ∃ header n, TableHeader.read? (line t.header) = some header ∧ header.name = some n ∧ n.value = t.name ∧
      header.settings.foldl withSetting { name := n.value, otherName := header.otherName } =
        { t with fields := [] } := by
  have hitems := isSetting_items h
  obtain ⟨header, n, hread, hname, hvalue, hother, htexts⟩ := TableHeader.read?_line h.name.1
    fun item hi => ⟨(hitems item hi).isItem, (hitems item hi).readable⟩
  refine ⟨header, n, hread, hname, hvalue, ?_⟩
  rw [foldl_setting (fun _ _ => rfl) htexts, hvalue, hother]
  exact foldl_items h

end Table

/-! ## References -/

/-- An action is its words with single spaces between them, and in lower case. -/
theorem IsAction.spec {a : Text} (h : IsAction a) :
    Text.words a ≠ [] ∧ (∀ w ∈ Text.words a, w.IsWord) ∧ line (actionValue a) = a ∧
      Text.lower a = a := by
  have hall : ∀ a ∈ referentialActions.map String.toList,
      Text.words a ≠ [] ∧ (∀ w ∈ Text.words a, w.IsWord) ∧ line (actionValue a) = a ∧
        Text.lower a = a := by decide +kernel
  exact hall a h

theorem isSetting_actionValue {a : Text} (h : IsAction a) : IsSetting (actionValue a) :=
  isSetting_phrase h.spec.1 h.spec.2.1

/-- What a reference says of an action depends on the texts of its settings alone. -/
theorem RefBody.action_eq {body : RefBody} {list : List (List Segment)}
    (h : body.settings.map Setting.text = list.map line) (key : String) :
    body.action key = (list.find? fun item => (setting item).hasKey key).bind fun item =>
      (setting item).value?.map Text.lower := by
  have htexts : body.action key = ((body.settings.map Setting.text).find? fun t => Setting.hasKey ⟨t, 0, 0⟩ key).bind
      fun t => (Setting.value? ⟨t, 0, 0⟩).map Text.lower := by
    rw [List.find?_map, Option.bind_map]
    rfl
  rw [htexts, h, List.find?_map, Option.bind_map]
  rfl

namespace Relationship

variable {r : Relationship}

theorem isSetting_items (h : r.Writable) : ∀ item ∈ r.items, IsSetting item := by
  intro item hi
  rcases List.mem_append.mp hi with hi | hi
  · exact isSetting_keyedItem (by decide) (fun a ha => isSetting_actionValue (h.onDelete a ha)) item hi
  · exact isSetting_keyedItem (by decide) (fun a ha => isSetting_actionValue (h.onUpdate a ha)) item hi

theorem isStatement_segments (h : r.Writable) : IsStatement r.segments := by
  have hitems := isSetting_items h
  have hread : Readable r.segments :=
    readable_refLine r.name r.source r.kind r.target fun item hi => (hitems item hi).readable
  rw [segments, ← List.append_assoc] at hread ⊢
  refine isStatement_append_bracketed ⟨?_, ?_⟩ hread ?_ hitems
  · cases r.name <;> exact ⟨_, _, rfl, nofun⟩
  · refine ⟨refStart r.name ++ (fieldName r.source.table r.source.field ++ [space, op r.kind, space] ++
      [str r.target.table, dot]), str r.target.field, ?_, nofun⟩
    simp [refBody, fieldName]
  · have hname := h.name
    intro content hc
    cases hr : r.name <;>
      simp only [hr, refStart, refBody, fieldName, List.mem_append, List.mem_cons, List.not_mem_nil, reduceCtorEq,
        str.injEq, or_false, false_or] at hc
    · rcases hc with (rfl | rfl) | rfl | rfl
      exacts [h.source.1, h.source.2, h.target.1, h.target.2]
    · rcases hc with rfl | (rfl | rfl) | rfl | rfl
      exacts [(hname _ hr).2, h.source.1, h.source.2, h.target.1, h.target.2]

theorem value?_actionValue {key : String} (hk : IsKey key) {a : Text} (h : IsAction a) :
    (setting (keyed key (actionValue a))).value?.map Text.lower = some a := by
  have hvalue : (setting (keyed key (actionValue a))).value? = some (line (actionValue a)) :=
    value?_keyed hk (isSetting_actionValue h).readable.wellFormed (isSetting_actionValue h).isItem.toHasEnds rfl
  obtain ⟨-, -, hline, hlower⟩ := h.spec
  rw [hvalue, hline, Option.map_some, hlower]

theorem action_items (h : r.Writable) {body : RefBody} (hb : body.settings.map Setting.text = r.items.map line) :
    body.action "delete" = r.onDelete ∧ body.action "update" = r.onUpdate := by
  have hdelete : IsKey "delete" := by decide
  have hupdate : IsKey "update" := by decide
  have hhas : ∀ {key : String}, IsKey key → ∀ a other,
      (setting (keyed key (actionValue a))).hasKey other = decide (key = other) :=
    fun hk _ other => hasKey_keyed hk rfl other
  rw [RefBody.action_eq hb, RefBody.action_eq hb, items]
  cases hd : r.onDelete with
  | none =>
      cases hu : r.onUpdate with
      | none => simp [keyedItem]
      | some b => simp [keyedItem, hhas hupdate, value?_actionValue hupdate (h.onUpdate b hu)]
  | some a =>
      cases hu : r.onUpdate with
      | none => simp [keyedItem, hhas hdelete, value?_actionValue hdelete (h.onDelete a hd)]
      | some b =>
          simp [keyedItem, hhas hdelete, hhas hupdate, value?_actionValue hdelete (h.onDelete a hd),
            value?_actionValue hupdate (h.onUpdate b hu)]

theorem read_line (h : r.Writable) (ho : r.origin = .standalone) :
    ∃ st, RefStatement.read? (line r.segments) = some st ∧ Relationship.ofBody st.body st.name = r := by
  have hitems := isSetting_items h
  have hname : r.name ≠ some [] := fun hn => (h.name [] hn).1 rfl
  obtain ⟨st, hst, hname, hsource, hkind, htarget, htexts⟩ := RefStatement.read?_line hname
    fun item hi => ⟨(hitems item hi).isItem, (hitems item hi).readable⟩
  refine ⟨st, hst, ?_⟩
  obtain ⟨hdelete, hupdate⟩ := action_items h htexts
  rw [ofBody, hname, hsource, hkind, htarget, hdelete, hupdate, ← ho]

end Relationship

end SchemaDiagram
