import SchemaDiagram.Proofs.Source.Reading

/-! # No code is lost

Every run of text between braces ends up in one statement, but for blanks: it becomes a statement of its own,
or it is appended to the statement that begins the triple-quoted string it goes on with.
-/
namespace SchemaDiagram

/-! ## What is appended -/

/-- The text of a run between braces. -/
def Event.piece : Event → Text
  | text _ content => content
  | openBrace _ | closeBrace _ => []

/-- The text that a step meets. -/
def Step.piece : Step → Text
  | newLine _ => []
  | event _ e => e.piece

theorem piece_steps (l : Line) : l.steps.flatMap Step.piece = l.events.flatMap Event.piece := by
  rw [Line.steps, List.flatMap_cons, List.flatMap_map]
  rfl

namespace Outline

variable {o : Outline} {init : List Text} {t : Text}

theorem texts_step_new (hcont : o.continuing = false) (l : Line) (start : Nat) {content : Text}
    (hcontent : content.trim ≠ []) :
    (o.step (.event l (.text start content))).texts = o.texts ++ [content.trim] := by
  simp only [step, addEvent, hcont]
  rcases addText_cases o l start content with ⟨hnil, -⟩ | ⟨-, s, hs, -, -, hadd⟩
  · exact absurd hnil hcontent
  · rw [show (_ : Outline) = o.addStatement s from hadd, ← hs]
    exact List.map_append

theorem texts_step_next (hcont : o.continuing = true) (ht : o.texts = init ++ [t]) (l : Line) (start : Nat)
    (content : Text) :
    (o.step (.event l (.text start content))).texts = init ++ [t ++ '\n' :: content.trimEnd] := by
  have hne : o.statements.isEmpty = false := by
    refine List.isEmpty_eq_false_iff.mpr fun hnil => ?_
    simp [texts, hnil] at ht
  simp only [step, addEvent, hcont, hne]
  exact texts_appendToLast ht content

theorem texts_addBrace {e : Event} (he : e.IsBrace) (l : Line) : (o.step (.event l e)).texts = o.texts := by
  cases e with
  | text => exact he.elim
  | openBrace start => exact texts_openBrace o _ _
  | closeBrace start => exact congrArg (List.map Statement.text) (closeBrace_frame o _ _).1

/-- A step drops blanks, adds a statement or appends to the last one. -/
theorem texts_step_cases (o : Outline) (s : Step) :
    (s.piece.IsBlanks ∧ (o.step s).texts = o.texts) ∨ (o.step s).texts = o.texts ++ [s.piece.trim] ∨
    ∃ init t, o.texts = init ++ [t] ∧ (o.step s).texts = init ++ [t ++ '\n' :: s.piece.trimEnd] := by
  cases s with
  | newLine l => exact .inl ⟨nofun, rfl⟩
  | event l e =>
      cases e with
      | openBrace start => exact .inl ⟨nofun, texts_addBrace (e := .openBrace start) trivial l⟩
      | closeBrace start => exact .inl ⟨nofun, texts_addBrace (e := .closeBrace start) trivial l⟩
      | text start content =>
          by_cases hlast : o.continuing = true ∧ o.statements ≠ []
          · have htexts : o.texts ≠ [] := fun h => hlast.2 (List.map_eq_nil_iff.mp h)
            have hsplit := (List.dropLast_concat_getLast htexts).symm
            exact .inr (.inr ⟨_, _, hsplit, texts_step_next hlast.1 hsplit l start content⟩)
          · have hstep : o.step (.event l (.text start content)) = o.addText l start content := by
              simp only [step, addEvent, Bool.and_eq_true, Bool.not_eq_true', List.isEmpty_eq_false_iff]
              exact if_neg hlast
            rcases addText_cases o l start content with ⟨hnil, hadd⟩ | ⟨-, s, hs, -, -, hadd⟩
            · exact .inl ⟨Text.isBlanks_of_trim_eq_nil hnil, by rw [hstep, hadd]; rfl⟩
            · refine .inr (.inl ?_)
              rw [hstep, hadd, Step.piece, Event.piece, ← hs]
              exact List.map_append

theorem withoutBlanks_step (o : Outline) (s : Step) :
    Text.withoutBlanks (o.step s).texts.flatten = Text.withoutBlanks o.texts.flatten ++ s.piece.withoutBlanks := by
  rcases texts_step_cases o s with ⟨hblanks, hstep⟩ | hstep | ⟨init, t, ho, hstep⟩
  · rw [hstep, hblanks.withoutBlanks_eq, List.append_nil]
  · rw [hstep, List.flatten_concat, Text.withoutBlanks_append, Text.withoutBlanks_trim]
  · have hfeed : Text.withoutBlanks ('\n' :: s.piece.trimEnd) = s.piece.withoutBlanks := Text.withoutBlanks_trimEnd _
    rw [hstep, ho, List.flatten_concat, List.flatten_concat, ← List.append_assoc, Text.withoutBlanks_append, hfeed]

/-- But for blanks, the statements hold what the steps met, in order. -/
theorem withoutBlanks_after (steps : List Step) :
    Text.withoutBlanks (after steps).texts.flatten = Text.withoutBlanks (steps.flatMap Step.piece) := by
  induction steps using List.reverseRecOn with
  | nil => rfl
  | append_singleton steps s ih =>
      rw [after_concat, withoutBlanks_step, ih, ← Text.withoutBlanks_append, List.flatMap_append,
        List.flatMap_singleton]

/-- No statement is dropped, and none loses text. -/
def Grows (o o' : Outline) : Prop :=
  ∀ (i : Nat) (t : Text), o.texts[i]? = some t → ∃ rest, o'.texts[i]? = some (t ++ rest)

theorem Grows.refl (o : Outline) : o.Grows o := fun _ t ht => ⟨[], by rw [List.append_nil, ht]⟩

theorem Grows.trans {o' o'' : Outline} (h : o.Grows o') (h' : o'.Grows o'') : o.Grows o'' := by
  intro i t ht
  obtain ⟨rest, hrest⟩ := h i t ht
  obtain ⟨more, hmore⟩ := h' i _ hrest
  exact ⟨rest ++ more, by rw [hmore, List.append_assoc]⟩

theorem grows_step (o : Outline) (s : Step) : o.Grows (o.step s) := by
  intro i t ht
  rcases texts_step_cases o s with ⟨-, hstep⟩ | hstep | ⟨init, last, ho, hstep⟩
  · exact ⟨[], by rw [hstep, List.append_nil, ht]⟩
  · refine ⟨[], ?_⟩
    rw [hstep, List.append_nil, List.getElem?_append_left (List.getElem?_eq_some_iff.mp ht).1, ht]
  · rw [ho] at ht
    rw [hstep]
    rcases Nat.lt_trichotomy i init.length with hi | rfl | hi
    · rw [List.getElem?_append_left hi] at ht ⊢
      exact ⟨[], by rw [List.append_nil, ht]⟩
    · rw [List.getElem?_concat_length] at ht ⊢
      cases ht
      exact ⟨_, rfl⟩
    · rw [List.getElem?_eq_none (by simp; omega)] at ht
      cases ht

theorem grows_after (steps more : List Step) : (after steps).Grows (after (steps ++ more)) := by
  induction more using List.reverseRecOn with
  | nil =>
      rw [List.append_nil]
      exact .refl _
  | append_singleton more s ih =>
      rw [← List.append_assoc, after_concat]
      exact ih.trans (grows_step _ s)

end Outline

/-- A step over which a triple-quoted string goes on. -/
def Step.GoesOn : Step → Prop
  | newLine l => l.continuesString = true
  | event _ (.text _ content) => ¬tripleMark <:+: content
  | event _ (.openBrace _) | event _ (.closeBrace _) => False

/-- What a step appends to the statement that a string goes on in. -/
def Step.appended : Step → Text
  | newLine _ | event _ (.openBrace _) | event _ (.closeBrace _) => []
  | event _ (.text _ content) => '\n' :: content.trimEnd

/-- Where the triple-quoted string begins that the steps end in: the piece of text with its three apostrophes,
and the steps behind it, over which it goes on. -/
structure OpenString (steps : List Step) where
  front : List Step
  line : Line
  start : Nat
  lead : Text
  inside : Text
  behind : List Step
  steps_eq : steps = front ++ .event line (.text start (lead ++ tripleMark ++ inside)) :: behind
  begins : (reading front).run lead = .outside
  unended : ¬tripleMark <:+: inside
  goesOn : ∀ s ∈ behind, s.GoesOn

namespace OpenString

variable {steps : List Step} {init : List Text} {text : Text} {s : Step}

/-- The steps up to the beginning of the string. -/
def begun (x : OpenString steps) : List Step :=
  x.front ++ [.event x.line (.text x.start (x.lead ++ tripleMark ++ x.inside))]

/-- What the string has behind the piece of text that it begins in. -/
def more (x : OpenString steps) : Text := x.behind.flatMap Step.appended

/-- A text with the beginning of the string is the last one of the statements behind `init`, and all that the
string has since had on other lines has been appended to it. -/
structure HeldIn (x : OpenString steps) (init : List Text) (text : Text) : Prop where
  beginning : ∃ earlier, text = earlier ++ x.lead.trimStart ++ tripleMark ++ x.inside.trimEnd
  begun : (Outline.after x.begun).texts = init ++ [text]
  now : (Outline.after steps).texts = init ++ [text ++ x.more]

def extend (x : OpenString steps) (hs : s.GoesOn) : OpenString (steps ++ [s]) where
  front := x.front
  line := x.line
  start := x.start
  lead := x.lead
  inside := x.inside
  behind := x.behind ++ [s]
  steps_eq := by
    conv_lhs => rw [x.steps_eq]
    rw [List.append_assoc, List.cons_append]
  begins := x.begins
  unended := x.unended
  goesOn := by
    intro s' hs'
    rcases List.mem_append.mp hs' with hs' | hs'
    · exact x.goesOn s' hs'
    · rwa [List.mem_singleton.mp hs']

theorem HeldIn.extend {x : OpenString steps} (h : x.HeldIn init text) (hs : s.GoesOn)
    (hstep : ((Outline.after steps).step s).texts = init ++ [text ++ x.more ++ s.appended]) :
    (x.extend hs).HeldIn init text := by
  have hmore : (x.extend hs).more = x.more ++ s.appended := by
    rw [more, OpenString.extend, List.flatMap_append, List.flatMap_singleton]
    rfl
  refine ⟨h.beginning, h.begun, ?_⟩
  rw [Outline.after_concat, hstep, hmore, List.append_assoc]

/-- The string that begins in the last piece of text. -/
def last (steps : List Step) (l : Line) (start : Nat) {lead inside : Text} (hlead : (reading steps).run lead = .outside)
    (hinside : ¬tripleMark <:+: inside) :
    OpenString (steps ++ [.event l (.text start (lead ++ tripleMark ++ inside))]) where
  front := steps
  line := l
  start := start
  lead := lead
  inside := inside
  behind := []
  steps_eq := rfl
  begins := hlead
  unended := hinside
  goesOn := nofun

theorem HeldIn.last (earlier : Text) {l : Line} {start : Nat} {lead inside : Text}
    (hlead : (reading steps).run lead = .outside) (hinside : ¬tripleMark <:+: inside)
    (hstep : ((Outline.after steps).step (.event l (.text start (lead ++ tripleMark ++ inside)))).texts =
      init ++ [earlier ++ lead.trimStart ++ tripleMark ++ inside.trimEnd]) :
    (OpenString.last steps l start hlead hinside).HeldIn init
      (earlier ++ lead.trimStart ++ tripleMark ++ inside.trimEnd) := by
  rw [← Outline.after_concat] at hstep
  refine ⟨⟨earlier, rfl⟩, hstep, ?_⟩
  rw [hstep, more, OpenString.last, List.flatMap_nil, List.append_nil]

end OpenString

theorem trimEnd_append_tripleMark (lead inside : Text) :
    Text.trimEnd (lead ++ tripleMark ++ inside) = lead ++ tripleMark ++ Text.trimEnd inside := by
  have h := Text.trimEnd_append_cons (c := '\'') rfl (lead ++ List.replicate 2 '\'') inside
  simpa [tripleMark, List.replicate] using h

theorem trim_append_tripleMark (lead inside : Text) :
    Text.trim (lead ++ tripleMark ++ inside) = Text.trimStart lead ++ tripleMark ++ Text.trimEnd inside := by
  have h := Text.trimStart_append_cons (c := '\'') rfl lead (List.replicate 2 '\'' ++ inside)
  rw [Text.trim, show lead ++ tripleMark ++ inside = lead ++ '\'' :: (List.replicate 2 '\'' ++ inside) by
    simp [tripleMark, List.replicate], h, ← trimEnd_append_tripleMark]
  simp [tripleMark, List.replicate]

/-- Wherever the automaton is in a triple-quoted string, the statement that this string begins in is the last
one. -/
theorem Read.exists_openString {steps : List Step} (h : Read steps) (hw : (reading steps).IsTriple) :
    ∃ (x : OpenString steps) (init : List Text) (text : Text), x.HeldIn init text := by
  induction h with
  | nil => exact hw.elim
  | @concat steps s _ hs ih =>
      rw [reading_concat] at hw
      cases s with
      | newLine l =>
          have hl : l.continuesString = true := by
            by_contra hl
            rw [StringState.over, if_neg hl] at hw
            exact hw
          have hgoes : Step.GoesOn (.newLine l) := hl
          obtain ⟨x, init, text, hx⟩ := ih (hs.mp hl)
          refine ⟨x.extend hgoes, init, text, hx.extend hgoes ?_⟩
          rw [Step.appended, List.append_nil]
          exact hx.now
      | event l e =>
          cases e with
          | openBrace | closeBrace => exact hw.elim
          | text start content =>
              obtain ⟨hcont, hstart⟩ | ⟨hcont, hstart⟩ : (Outline.after steps).Resumes (reading steps) := hs
              · rcases StringState.exists_beginning (.inl hstart) hw with
                  ⟨hin, -⟩ | ⟨lead, inside, rfl, hlead, hinside⟩
                · exact nomatch hstart.symm.trans hin
                · have hcode : Text.trim (lead ++ tripleMark ++ inside) ≠ [] := by
                    rw [trim_append_tripleMark]
                    simp [tripleMark]
                  have hnew := Outline.texts_step_new hcont l start hcode
                  rw [trim_append_tripleMark] at hnew
                  exact ⟨.last steps l start hlead hinside, _, _, .last [] hlead hinside hnew⟩
              · obtain ⟨x, init, text, hx⟩ := ih (hstart ▸ trivial)
                have hnext := Outline.texts_step_next hcont hx.now l start content
                rcases StringState.exists_beginning (.inr hstart) hw with
                  ⟨-, hinside⟩ | ⟨lead, inside, rfl, hlead, hinside⟩
                · have hgoes : Step.GoesOn (.event l (.text start content)) := hinside
                  exact ⟨x.extend hgoes, init, text, hx.extend hgoes hnext⟩
                · obtain ⟨blanks, -, hblanks⟩ := Text.exists_trimStart_eq lead
                  rw [trimEnd_append_tripleMark] at hnext
                  refine ⟨.last steps l start hlead hinside, init, _,
                    .last (text ++ x.more ++ '\n' :: blanks) hlead hinside ?_⟩
                  rw [hnext]
                  conv_lhs => rw [← hblanks]
                  simp

/-! ## The whole text -/

/-- The statements of a text hold the code of its lines, in order and but for blanks. Where a line goes on with
a triple-quoted string, its first run of text is appended to the statement in which that string begins, and
stays there. -/
theorem Source.keeps_code (t : Text) :
    Text.withoutBlanks (Source.ofText t).outline.texts.flatten =
      Text.withoutBlanks ((scan t).flatMap fun l => l.events.flatMap Event.piece) ∧
    ∀ before l behind, scan t = before ++ l :: behind → l.continuesString = true → l.events ≠ [] →
      ∃ start content later, l.events = .text start content :: later ∧
      ∃ (x : OpenString (before.flatMap Line.steps)) (init : List Text) (text : Text), x.HeldIn init text ∧
        (Outline.after (before.flatMap Line.steps ++ [.newLine l, .event l (.text start content)])).texts =
          init ++ [text ++ x.more ++ '\n' :: content.trimEnd] ∧
        ∃ rest, (Source.ofText t).outline.texts[init.length]? =
          some (text ++ x.more ++ '\n' :: content.trimEnd ++ rest) := by
  constructor
  · have hpieces : t.steps.flatMap Step.piece = (scan t).flatMap fun l => l.events.flatMap Event.piece := by
      rw [Text.steps, List.flatMap_assoc]
      simp only [piece_steps]
    rw [Outline.outline_ofText, Outline.withoutBlanks_after, hpieces]
  · intro before l behind hscan hl hevents
    obtain ⟨e, later, he⟩ := List.exists_cons_of_ne_nil hevents
    have hsteps : t.steps = before.flatMap Line.steps ++ .newLine l :: .event l e ::
        (later.map (.event l) ++ behind.flatMap Line.steps) := by
      rw [Text.steps, hscan, List.flatMap_append, List.flatMap_cons, Line.steps, he]
      rfl
    have hread := hsteps ▸ read_steps t
    obtain ⟨x, init, text, hx⟩ := hread.of_append.exists_openString (hread.fits.mp hl)
    have hstart : reading (before.flatMap Line.steps ++ [.newLine l]) = .triple 0 := by
      rw [reading_concat, StringState.over, if_pos hl]
    have hcont : (Outline.after (before.flatMap Line.steps ++ [.newLine l])).continuing = true := by
      rw [Outline.after_concat]
      exact hl
    have htexts : (Outline.after (before.flatMap Line.steps ++ [.newLine l])).texts = init ++ [text ++ x.more] := by
      rw [Outline.after_concat]
      exact hx.now
    cases e with
    | openBrace | closeBrace =>
        rw [List.append_cons] at hread
        exact (hstart ▸ hread.fits : (StringState.triple 0).IsOutside).elim
    | text start content =>
        have hnext := Outline.texts_step_next hcont htexts l start content
        rw [← Outline.after_concat, List.append_assoc, List.singleton_append] at hnext
        refine ⟨start, content, later, he, x, init, text, hx, hnext, ?_⟩
        have hlast := congrArg (·[init.length]?) hnext
        simp only [List.getElem?_concat_length] at hlast
        have hsplit := List.append_assoc (before.flatMap Line.steps) [.newLine l, .event l (.text start content)]
          (later.map (.event l) ++ behind.flatMap Line.steps)
        rw [Outline.outline_ofText, hsteps]
        exact hsplit ▸ Outline.grows_after _ _ _ _ hlast

/-- A note over four lines, one of them empty, behind a string of one line. -/
def longNote : Text := "Table t \x7b\n Note: 'x' '''a \x7b\n b\n\n c''' [pk]\n\x7d".toList

def longNoteEnd : Line := ⟨5, true, " c''' [pk]".toList.map .plain⟩

theorem Source.keeps_code_longNote :
    scan longNote = (scan longNote).take 4 ++ longNoteEnd :: (scan longNote).drop 5 ∧
    longNoteEnd.continuesString = true ∧ longNoteEnd.events ≠ [] ∧
    ∃ (x : OpenString (((scan longNote).take 4).flatMap Line.steps)) (init : List Text) (text : Text),
      x.HeldIn init text := by
  have hlines : scan longNote = (scan longNote).take 4 ++ longNoteEnd :: (scan longNote).drop 5 := by decide +kernel
  have hevents : longNoteEnd.events ≠ [] := by decide +kernel
  obtain ⟨start, content, later, -, x, init, text, hx, -⟩ :=
    (Source.keeps_code longNote).2 _ longNoteEnd _ hlines rfl hevents
  exact ⟨hlines, rfl, hevents, x, init, text, hx⟩

end SchemaDiagram
