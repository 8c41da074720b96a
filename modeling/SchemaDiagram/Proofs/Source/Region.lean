import Mathlib.Data.List.Chain
import SchemaDiagram.Proofs.Source.Literal
import SchemaDiagram.Proofs.Source.Order

/-! # Regions of a line

A line is code, strings and comments, one behind the other, as their marks say. The code of the line has every
character of it in its column, with spaces in place of block comments, up to a comment that runs to the end of the
line. The events cut that code up.
-/
namespace SchemaDiagram

/-! ## Regions -/

/-- A part of a line: a character outside strings and comments, or all of a string or comment that is in the line. -/
inductive Region
  | code (c : Char)
  | string (text : Text)
  | blockComment (text : Text)
  | lineComment (text : Text)

namespace Region

def text : Region → Text
  | code c => [c]
  | string t | blockComment t | lineComment t => t

/-- What stands in the code for the region. -/
def shown : Region → Text
  | code c => [c]
  | string t => t
  | blockComment t => List.replicate t.length ' '
  | lineComment _ => []

/-- The region runs to the end of its line and is not shown. -/
def IsLineComment : Region → Prop
  | lineComment _ => True
  | _ => False

end Region

namespace ScanState

/-- The region that a reader is inside of, with the given text. -/
def region : ScanState → Text → Region
  | blockComment, t => .blockComment t
  | _, t => .string t

/-- The mark in front of what a reader is inside of. -/
def opening : ScanState → Text
  | code => []
  | blockComment => ['/', '*']
  | tripleQuoted => tripleMark
  | quoted quote => [quote]

/-- The mark opens something in front of the text. An apostrophe with a pair behind it is the mark of three. -/
def Opens : ScanState → Text → Prop
  | code, _ => False
  | blockComment, _ | tripleQuoted, _ => True
  | quoted quote, behind => isQuote quote = true ∧ (quote = '\'' → ¬StartsPair behind)

/-- The text ends what a reader is inside of, at the first mark that does so. -/
def Ends : ScanState → Text → Prop
  | code, _ => False
  | blockComment, t => EndsWithFirst ['*', '/'] t
  | tripleQuoted, t => EndsWithFirst tripleMark t
  | quoted quote, t => ClosedBy quote t

/-- The text has no mark that ends what a reader is inside of. -/
def GoesOn : ScanState → Text → Prop
  | code, _ => False
  | blockComment, t => ¬['*', '/'] <:+: t
  | tripleQuoted, t => ¬tripleMark <:+: t
  | quoted quote, t => Unclosed quote t

end ScanState

/-- The regions of a line that starts in one state and ends in another. -/
inductive Regions : ScanState → List Region → ScanState → Prop
  | done : Regions .code [] .code
  | code {c rs e} (hq : isQuote c = false)
      (hc : c = '/' → (rs.flatMap Region.text).head? ≠ some '/' ∧ (rs.flatMap Region.text).head? ≠ some '*')
      (h : Regions .code rs e) : Regions .code (.code c :: rs) e
  | lineComment (t : Text) : Regions .code [.lineComment ('/' :: '/' :: t)] .code
  | opens {s body rs e} (hs : s.Opens (body ++ rs.flatMap Region.text)) (h : Regions s (s.region body :: rs) e) :
      Regions .code (s.region (s.opening ++ body) :: rs) e
  | ends {s body rs e} (hbody : s.Ends body) (h : Regions .code rs e) : Regions s (s.region body :: rs) e
  | goesOn {s body} (hbody : s.GoesOn body) : Regions s [s.region body] s

/-- A line that starts inside of something has the rest of it first. -/
theorem Regions.of_ne_code {s e : ScanState} {rs : List Region} (h : Regions s rs e) (hs : s ≠ .code) :
    ∃ body more, rs = s.region body :: more ∧
      (s.Ends body ∧ Regions .code more e ∨ s.GoesOn body ∧ more = [] ∧ e = s) := by
  cases h with
  | ends hbody h => exact ⟨_, _, rfl, .inl ⟨hbody, h⟩⟩
  | goesOn hbody => exact ⟨_, _, rfl, .inr ⟨hbody, rfl, rfl⟩⟩
  | _ => exact absurd rfl hs

theorem ScanState.text_region (s : ScanState) (t : Text) : (s.region t).text = t := by
  cases s <;> rfl

theorem ScanState.shown_region_append (s : ScanState) (front t : Text) :
    (s.region (front ++ t)).shown = (s.region front).shown ++ (s.region t).shown := by
  cases s with
  | blockComment =>
      simp only [region, Region.shown, List.length_append, List.replicate_add]
  | _ => rfl

/-! ## Reading regions -/

theorem EndsWithFirst.cons {mark t : Text} {c : Char} (h : EndsWithFirst mark t) (hc : ¬mark <+: c :: t) :
    EndsWithFirst mark (c :: t) where
  suffix := h.suffix.trans (List.suffix_cons c t)
  first hmark := by
    cases t with
    | nil => exact hc (List.suffix_nil.mp h.suffix ▸ List.nil_prefix)
    | cons d t =>
        rw [List.dropLast_cons_of_ne_nil (List.cons_ne_nil d t)] at hmark
        rcases List.infix_cons_iff.mp hmark with hfirst | hrest
        · exact hc (hfirst.trans (List.cons_prefix_cons.mpr ⟨rfl, List.dropLast_prefix _⟩))
        · exact h.first hrest

/-- The text is cut into regions, and the code is what is shown of them. -/
def Divides (s : ScanState) (t code : Text) (e : ScanState) : Prop :=
  ∃ rs, Regions s rs e ∧ rs.flatMap Region.text = t ∧ rs.flatMap Region.shown = code

namespace Divides

variable {s e : ScanState} {t code : Text}

theorem char {c : Char} (h : Divides .code t code e) (hq : isQuote c = false)
    (hc : c = '/' → t.head? ≠ some '/' ∧ t.head? ≠ some '*') : Divides .code (c :: t) (c :: code) e := by
  obtain ⟨rs, hrs, rfl, rfl⟩ := h
  exact ⟨.code c :: rs, .code hq hc hrs, rfl, rfl⟩

theorem opens (h : Divides s t code e) (hs : s.Opens t) :
    Divides .code (s.opening ++ t) ((s.region s.opening).shown ++ code) e := by
  obtain ⟨rs, hrs, rfl, rfl⟩ := h
  obtain ⟨body, more, rfl, -⟩ := hrs.of_ne_code (by rintro rfl; exact hs)
  rw [List.flatMap_cons, s.text_region] at hs ⊢
  refine ⟨s.region (s.opening ++ body) :: more, .opens hs hrs, ?_, ?_⟩
  · rw [List.flatMap_cons, s.text_region, List.append_assoc]
  · rw [List.flatMap_cons, List.flatMap_cons, s.shown_region_append, List.append_assoc]

theorem ends (h : Divides .code t code e) (body : Text) (hbody : s.Ends body) :
    Divides s (body ++ t) ((s.region body).shown ++ code) e := by
  obtain ⟨rs, hrs, rfl, rfl⟩ := h
  exact ⟨s.region body :: rs, .ends hbody hrs, by rw [List.flatMap_cons, s.text_region], rfl⟩

/-- More characters in front of what ends a region, or goes on, belong to it. -/
theorem inside (h : Divides s t code e) (hs : s ≠ .code) (front : Text)
    (hends : ∀ body, body <+: t → s.Ends body → s.Ends (front ++ body)) (hgoes : s.GoesOn t → s.GoesOn (front ++ t)) :
    Divides s (front ++ t) ((s.region front).shown ++ code) e := by
  obtain ⟨rs, hrs, rfl, rfl⟩ := h
  obtain ⟨body, more, rfl, hcases⟩ := hrs.of_ne_code hs
  rw [List.flatMap_cons, s.text_region] at hends hgoes
  refine ⟨s.region (front ++ body) :: more, ?_, ?_, ?_⟩
  · rcases hcases with ⟨hbody, hmore⟩ | ⟨hbody, rfl, rfl⟩
    · exact .ends (hends body (List.prefix_append _ _) hbody) hmore
    · rw [List.flatMap_nil, List.append_nil] at hgoes
      exact .goesOn (hgoes hbody)
  · rw [List.flatMap_cons, List.flatMap_cons, s.text_region, s.text_region, List.append_assoc]
  · rw [List.flatMap_cons, List.flatMap_cons, s.shown_region_append, List.append_assoc]

/-- One more character in front of a text that does not start with the mark. -/
theorem insideMarked (h : Divides s t code e) (hs : s ≠ .code) (mark : Text)
    (hends : ∀ body, s.Ends body ↔ EndsWithFirst mark body) (hgoes : ∀ body, s.GoesOn body ↔ ¬mark <:+: body) {c : Char}
    (hmark : ¬mark <+: c :: t) : Divides s (c :: t) ((s.region [c]).shown ++ code) e := by
  refine h.inside hs [c] (fun body hbody hend => ?_) fun hgo => ?_
  · refine (hends _).mpr (((hends _).mp hend).cons fun hfirst => hmark ?_)
    exact hfirst.trans (List.cons_prefix_cons.mpr ⟨rfl, hbody⟩)
  · refine (hgoes _).mpr fun hinfix => ?_
    exact (List.infix_cons_iff.mp hinfix).elim hmark ((hgoes _).mp hgo)

end Divides

/-- The reader shows what the regions of a line show. -/
theorem Scans.divides {s e : ScanState} {t : Text} {gs : List Glyph} (h : Scans s t gs e) :
    Divides s t (gs.map Glyph.char) e := by
  induction h with
  | @done s =>
      cases s with
      | code => exact ⟨[], .done, rfl, rfl⟩
      | blockComment =>
          have hgoes : ScanState.blockComment.GoesOn [] := (by decide : ¬['*', '/'] <:+: [])
          exact ⟨_, .goesOn hgoes, rfl, rfl⟩
      | tripleQuoted =>
          have hgoes : ScanState.tripleQuoted.GoesOn [] := (by decide : ¬tripleMark <:+: [])
          exact ⟨_, .goesOn hgoes, rfl, rfl⟩
      | quoted quote => exact ⟨_, .goesOn (s := .quoted quote) .nil, rfl, rfl⟩
  | @lineComment rest => exact ⟨_, .lineComment rest, by simp [Region.text], rfl⟩
  | openComment _ ih => exact ih.opens trivial
  | closeComment _ ih => exact ih.ends (s := .blockComment) ['*', '/'] ⟨List.suffix_refl _, by decide⟩
  | comment hc _ ih =>
      refine ih.insideMarked nofun ['*', '/'] (fun _ => Iff.rfl) (fun _ => Iff.rfl) ?_
      rintro ⟨behind, hbehind⟩
      obtain ⟨hstar, hslash⟩ := List.cons.inj hbehind
      exact hc hstar.symm (hslash ▸ rfl)
  | openTriple _ ih => exact ih.opens trivial
  | closeTriple _ ih => exact ih.ends (s := .tripleQuoted) tripleMark ⟨List.suffix_refl _, by decide⟩
  | triple hc _ ih =>
      refine ih.insideMarked nofun tripleMark (fun _ => Iff.rfl) (fun _ => Iff.rfl) ?_
      rintro ⟨behind, hbehind⟩
      obtain ⟨hquote, hpair⟩ := List.cons.inj hbehind
      exact hc hquote.symm ⟨behind, hpair.symm⟩
  | openQuote hq hc _ ih => exact ih.opens ⟨hq, hc⟩
  | closeQuote _ _ ih => exact ih.ends (s := .quoted _) [_] .quote
  | escape _ ih => exact ih.inside nofun ['\\', _] (fun _ _ => .escape) .escape
  | @quoted quote c rest gs e hlast hq _ ih =>
      refine ih.inside nofun [c] (fun body hbody hends => ?_) fun hgoes => ?_
      -- a backslash that the line ends with stands for no character
      · by_cases hc : c = '\\'
        · rw [hlast hc, List.prefix_nil] at hbody
          subst hbody
          cases hends
        · exact .char hc hq hends
      · by_cases hc : c = '\\'
        · rw [hlast hc, hc]
          exact .backslash
        · exact .char hc hq hgoes
  | openBrace _ ih => exact ih.char (by decide) nofun
  | closeBrace _ ih => exact ih.char (by decide) nofun
  | plain _ hq hc _ ih => exact ih.char hq hc

/-! ## Columns -/

/-- Character `k` of the line is one of a block comment. -/
def InBlockComment (rs : List Region) (k : Nat) : Prop :=
  ∃ before comment after, rs = before ++ .blockComment comment :: after ∧
    (before.flatMap Region.text).length ≤ k ∧ k < (before.flatMap Region.text).length + comment.length

/-- Each character of the code is the one in its column, or a space for one of a block comment. The code is as long
as the line, unless a comment that runs to the end of the line starts behind it. -/
structure KeepsColumns (rs : List Region) (t code : Text) : Prop where
  length_le : code.length ≤ t.length
  char : ∀ k c, code[k]? = some c → t[k]? = some c ∨ c = ' ' ∧ InBlockComment rs k
  short : code.length < t.length → ∃ before comment, rs = before ++ [.lineComment comment] ∧
    (before.flatMap Region.text).length = code.length

theorem Region.length_shown {r : Region} (h : ¬r.IsLineComment) : r.shown.length = r.text.length := by
  cases r with
  | lineComment => exact absurd trivial h
  | blockComment => exact List.length_replicate
  | _ => rfl

theorem Region.getElem?_shown {r : Region} {k : Nat} {c : Char} (h : r.shown[k]? = some c) :
    r.text[k]? = some c ∨ c = ' ' ∧ ∃ comment, r = .blockComment comment ∧ k < comment.length := by
  cases r with
  | blockComment t =>
      rw [shown, List.getElem?_replicate] at h
      split at h
      · next hk => exact .inr ⟨(Option.some.inj h).symm, t, rfl, hk⟩
      · cases h
  | lineComment => cases h
  | _ => exact .inl h

theorem InBlockComment.cons {rs : List Region} {k : Nat} (h : InBlockComment rs k) (r : Region) :
    InBlockComment (r :: rs) (r.text.length + k) := by
  obtain ⟨before, comment, after, rfl, hle, hlt⟩ := h
  refine ⟨r :: before, comment, after, rfl, ?_, ?_⟩ <;> rw [List.flatMap_cons, List.length_append] <;> omega

theorem InBlockComment.append {rs : List Region} {k : Nat} (h : InBlockComment rs k) (more : List Region) :
    InBlockComment (rs ++ more) k := by
  obtain ⟨before, comment, after, rfl, hle, hlt⟩ := h
  exact ⟨before, comment, after ++ more, by simp, hle, hlt⟩

section

variable {rs : List Region}

theorem length_flatMap_shown (h : ∀ r ∈ rs, ¬r.IsLineComment) :
    (rs.flatMap Region.shown).length = (rs.flatMap Region.text).length := by
  induction rs with
  | nil => rfl
  | cons r rs ih =>
      obtain ⟨hr, hrs⟩ := List.forall_mem_cons.mp h
      rw [List.flatMap_cons, List.flatMap_cons, List.length_append, List.length_append, r.length_shown hr, ih hrs]

theorem getElem?_flatMap_shown (h : ∀ r ∈ rs, ¬r.IsLineComment) {k : Nat} {c : Char}
    (hk : (rs.flatMap Region.shown)[k]? = some c) :
    (rs.flatMap Region.text)[k]? = some c ∨ c = ' ' ∧ InBlockComment rs k := by
  induction rs generalizing k with
  | nil => cases hk
  | cons r rs ih =>
      obtain ⟨hr, hrs⟩ := List.forall_mem_cons.mp h
      have hlength := r.length_shown hr
      rw [List.flatMap_cons] at hk ⊢
      rcases Nat.lt_or_ge k r.text.length with hlt | hge
      · rw [List.getElem?_append_left (by omega)] at hk ⊢
        rcases Region.getElem?_shown hk with hsame | ⟨hc, comment, rfl, hcomment⟩
        · exact .inl hsame
        · exact .inr ⟨hc, [], comment, rs, rfl, Nat.zero_le k, by simpa using hcomment⟩
      · obtain ⟨n, rfl⟩ := Nat.exists_eq_add_of_le hge
        rw [List.getElem?_append_right (by omega), hlength, Nat.add_sub_cancel_left] at hk
        rw [List.getElem?_append_right hge, Nat.add_sub_cancel_left]
        exact (ih hrs hk).imp_right fun ⟨hc, hcomment⟩ => ⟨hc, hcomment.cons r⟩

theorem keepsColumns_of_forall (h : ∀ r ∈ rs, ¬r.IsLineComment) :
    KeepsColumns rs (rs.flatMap Region.text) (rs.flatMap Region.shown) where
  length_le := Nat.le_of_eq (length_flatMap_shown h)
  char _ _ := getElem?_flatMap_shown h
  short hlt := absurd (length_flatMap_shown h) (Nat.ne_of_lt hlt)

end

/-- No region stands behind a comment that runs to the end of the line. -/
theorem Regions.pairwise {s e : ScanState} {rs : List Region} (h : Regions s rs e) :
    rs.Pairwise fun r _ => ¬r.IsLineComment := by
  have hregion : ∀ (s : ScanState) (t : Text), ¬(s.region t).IsLineComment := by
    intro s t
    cases s <;> exact id
  induction h with
  | done => exact .nil
  | code _ _ _ ih => exact .cons (fun _ _ => id) ih
  | lineComment => exact List.pairwise_singleton _ _
  | opens _ _ ih => exact .cons (fun _ _ => hregion _ _) ih.of_cons
  | ends _ _ ih => exact .cons (fun _ _ => hregion _ _) ih
  | goesOn => exact List.pairwise_singleton _ _

theorem Regions.keepsColumns {s e : ScanState} {rs : List Region} (h : Regions s rs e) :
    KeepsColumns rs (rs.flatMap Region.text) (rs.flatMap Region.shown) := by
  have hpairwise := h.pairwise
  cases rs using List.reverseRecOn with
  | nil => exact keepsColumns_of_forall nofun
  | append_singleton before r =>
      have hbefore : ∀ r ∈ before, ¬r.IsLineComment := fun r hr =>
        (List.pairwise_append.mp hpairwise).2.2 r hr _ (List.mem_singleton_self _)
      cases r with
      | lineComment comment =>
          have hcolumns := keepsColumns_of_forall hbefore
          have hlength := length_flatMap_shown hbefore
          have hshown : (before ++ [Region.lineComment comment]).flatMap Region.shown =
              before.flatMap Region.shown := by
            simp [Region.shown]
          rw [hshown, List.flatMap_append]
          refine ⟨?_, fun k c hk => ?_, fun _ => ⟨before, comment, rfl, hlength.symm⟩⟩
          · rw [List.length_append]
            exact Nat.le_add_right_of_le hcolumns.length_le
          · have hlt : k < (before.flatMap Region.text).length := hlength ▸ (List.getElem?_eq_some_iff.mp hk).1
            rw [List.getElem?_append_left hlt]
            exact (hcolumns.char k c hk).imp_right fun ⟨hc, hcomment⟩ => ⟨hc, hcomment.append _⟩
      | _ => exact keepsColumns_of_forall (List.forall_mem_append.mpr ⟨hbefore, List.forall_mem_singleton.mpr id⟩)

/-! ## Events -/

namespace Event

/-- The events cut the code up: they cover each byte of it once, from the first to the last. A run of text is not
empty and has no other one beside it. -/
structure CutUp (code : Text) (es : List Event) : Prop where
  tile : Tile 0 es
  once : ∀ n < code.bytes, ∃! e, e ∈ es ∧ e.start ≤ n ∧ n < e.stop
  inside : ∀ e ∈ es, e.stop ≤ code.bytes
  slice : ∀ e ∈ es, code.slice e.start e.stop = e.content
  text : ∀ start content, text start content ∈ es → content ≠ []
  brace : ∀ e ∈ es, e.IsBrace → e.stop = e.start + 1
  apart : es.IsChain fun e e' => e.IsBrace ∨ e'.IsBrace

/-- A byte of the tiled range belongs to one event. -/
theorem Tile.existsUnique {start n : Nat} {es : List Event} (h : Tile start es) (hstart : start ≤ n)
    (hn : n < start + Text.bytes (es.flatMap content)) : ∃! e, e ∈ es ∧ e.start ≤ n ∧ n < e.stop := by
  induction es generalizing start with
  | nil => exact absurd hn (Nat.not_lt_of_le hstart)
  | cons e es ih =>
      obtain ⟨rfl, hmore⟩ := h
      rcases Nat.lt_or_ge n e.stop with hlt | hge
      · refine ⟨e, ⟨List.mem_cons_self, hstart, hlt⟩, ?_⟩
        rintro e' ⟨hmem, hle, -⟩
        rcases List.mem_cons.mp hmem with rfl | hmem
        · rfl
        · exact absurd (hmore.pairwise.1 e' hmem) (by omega)
      · have hlast : n < e.stop + Text.bytes (es.flatMap content) := by
          rwa [List.flatMap_cons, Text.bytes_append, ← Nat.add_assoc] at hn
        obtain ⟨e', ⟨hmem, hbounds⟩, hunique⟩ := ih hmore hge hlast
        refine ⟨e', ⟨List.mem_cons_of_mem e hmem, hbounds⟩, ?_⟩
        rintro e'' ⟨hmem'', hbounds''⟩
        rcases List.mem_cons.mp hmem'' with rfl | hmem''
        · exact absurd hbounds''.2 (by omega)
        · exact hunique e'' ⟨hmem'', hbounds''⟩

theorem isChain_ofGlyphs (start : Nat) (gs : List Glyph) :
    (ofGlyphs start gs).IsChain fun e e' => e.IsBrace ∨ e'.IsBrace := by
  induction gs generalizing start with
  | nil => exact .nil
  | cons g gs ih =>
      cases g with
      | openBrace => exact List.isChain_cons.mpr ⟨fun _ _ => .inl trivial, ih _⟩
      | closeBrace => exact List.isChain_cons.mpr ⟨fun _ _ => .inl trivial, ih _⟩
      | plain c =>
          have hrest := ih (start + c.utf8Size)
          rw [ofGlyphs]
          split
          · next heq =>
              rw [heq] at hrest
              exact List.isChain_cons.mpr (List.isChain_cons.mp hrest)
          · next hother =>
              refine List.isChain_cons.mpr ⟨fun e he => .inr ?_, hrest⟩
              obtain ⟨more, hmore⟩ := List.head?_eq_some_iff.mp he
              cases e with
              | text first content => exact (hother _ _ _ hmore).elim
              | openBrace => trivial
              | closeBrace => trivial

theorem content_ne_nil_of_mem_ofGlyphs {start : Nat} {gs : List Glyph} {e : Event} (h : e ∈ ofGlyphs start gs) :
    e.content ≠ [] := by
  induction gs generalizing start with
  | nil => cases h
  | cons g gs ih =>
      rcases mem_ofGlyphs_cons h with ⟨-, hne⟩ | hrest
      · exact hne
      · exact ih hrest

end Event

theorem Line.cutUp_events (l : Line) : Event.CutUp l.code l.events where
  tile := Event.tile_ofGlyphs 0 l.glyphs
  once n hn := by
    refine (Event.tile_ofGlyphs 0 l.glyphs).existsUnique (Nat.zero_le n) ?_
    rwa [Nat.zero_add, Event.flatMap_content_ofGlyphs]
  inside e he := by
    obtain ⟨before, after, hcode, hstart⟩ := Access.exists_around_of_mem_events he
    rw [Event.stop, hcode, hstart, Text.bytes_append, Text.bytes_append]
    omega
  slice e he := by
    obtain ⟨before, after, hcode, hstart⟩ := Access.exists_around_of_mem_events he
    rw [Event.stop, hcode, hstart, Text.slice_append]
  text start content h := Event.content_ne_nil_of_mem_ofGlyphs h
  brace e _ hbrace := by
    cases e with
    | text => exact hbrace.elim
    | _ => rfl
  apart := Event.isChain_ofGlyphs 0 l.glyphs

/-! ## Lines -/

/-- The lines of code of some lines of text, of which the first starts in the given state. A line goes on with what
the line above leaves open. -/
inductive InColumns : ScanState → List Text → List Line → Prop
  | nil {s} : InColumns s [] []
  | cons {s e raw raws l ls rs} (hregions : Regions s rs e) (htext : rs.flatMap Region.text = dropReturn raw)
      (hcode : rs.flatMap Region.shown = l.code) (hcolumns : KeepsColumns rs (dropReturn raw) l.code)
      (hevents : Event.CutUp l.code l.events) (h : InColumns e.endLine raws ls) : InColumns s (raw :: raws) (l :: ls)

theorem inColumns_scanLines (s : ScanState) (number : Nat) (raws : List Text) :
    InColumns s raws (scanLines s number raws) := by
  induction raws generalizing s number with
  | nil => exact .nil
  | cons raw raws ih =>
      obtain ⟨rs, hregions, htext, hcode⟩ := (scans_scanChars s (dropReturn raw)).divides
      have hcolumns := hregions.keepsColumns
      rw [htext, hcode] at hcolumns
      rw [scanLines_cons]
      exact .cons hregions htext hcode hcolumns (Line.cutUp_events _) (ih _ _)

/-- A text has as many lines of code as lines, and each of them keeps the columns of its line. -/
theorem scan_inColumns (t : Text) : (scan t).length = t.lines.length ∧ InColumns .code t.lines (scan t) :=
  ⟨length_scanLines _ _ _, inColumns_scanLines _ _ _⟩

end SchemaDiagram
