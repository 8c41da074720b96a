import SchemaDiagram.Proofs.Source.Reading

/-! # Strings by their characters

Where a string ends, said without a reader: at the first quote that no backslash stands for, or at the first three
apostrophes in a row. A text that has no such end belongs to the string as a whole.
-/
namespace SchemaDiagram

/-- The text has no quote that ends a string. A backslash takes the character behind it along. -/
inductive Unclosed (quote : Char) : Text → Prop
  | nil : Unclosed quote []
  | backslash : Unclosed quote ['\\']
  | escape {c rest} (h : Unclosed quote rest) : Unclosed quote ('\\' :: c :: rest)
  | char {c rest} (hc : c ≠ '\\') (hq : c ≠ quote) (h : Unclosed quote rest) : Unclosed quote (c :: rest)

/-- The text ends with the first quote that ends a string. -/
inductive ClosedBy (quote : Char) : Text → Prop
  | quote : ClosedBy quote [quote]
  | escape {c rest} (h : ClosedBy quote rest) : ClosedBy quote ('\\' :: c :: rest)
  | char {c rest} (hc : c ≠ '\\') (hq : c ≠ quote) (h : ClosedBy quote rest) : ClosedBy quote (c :: rest)

theorem ClosedBy.not_unclosed {quote : Char} (hquote : quote ≠ '\\') {t : Text} (h : ClosedBy quote t) :
    ¬Unclosed quote t := by
  intro hunclosed
  induction h with
  | quote =>
      cases hunclosed with
      | backslash => exact hquote rfl
      | char _ hne => exact hne rfl
  | escape _ ih =>
      cases hunclosed with
      | escape hunclosed => exact ih hunclosed
      | char hc => exact hc rfl
  | char hc _ _ ih =>
      cases hunclosed with
      | backslash => exact hc rfl
      | escape => exact hc rfl
      | char _ _ hunclosed => exact ih hunclosed

/-- The text ends with the mark, which stands nowhere in front of its end. -/
structure EndsWithFirst (mark t : Text) : Prop where
  suffix : mark <:+ t
  first : ¬mark <:+: t.dropLast

/-- The characters of a string that has no end. -/
inductive UnendedString : Text → Prop
  | single {quote body} (hq : isQuote quote = true) (h : Unclosed quote body) : UnendedString (quote :: body)
  | triple {body} (h : ¬tripleMark <:+: body) : UnendedString (tripleMark ++ body)

/-! ## Reading strings without an end -/

theorem readQuoted_append_of_closed {quote : Char} (hquote : quote ≠ '\\') {t : Text} (h : ¬Unclosed quote t)
    (hend : (readQuoted quote t).2 = []) (more : Text) :
    readQuoted quote (t ++ more) = ((readQuoted quote t).1, more) := by
  fun_induction readQuoted quote t with
  | case1 => exact absurd .nil h
  | case2 c rest content after hread ih =>
      rw [hread] at ih
      obtain rfl : after = [] := hend
      rw [List.cons_append, List.cons_append, readQuoted, ih (fun hrest => h (.escape hrest)) rfl]
  | case3 rest hlast =>
      obtain rfl : rest = [] := hend
      rw [List.cons_append, readQuoted, if_pos rfl, List.nil_append]
      exact fun _ _ h => absurd h hquote
  | case4 rest hlast =>
      cases rest with
      | nil => exact absurd .backslash h
      | cons d rest => exact absurd rfl (hlast d rest rfl)
  | case5 c rest hlast hc hback content after hread ih =>
      rw [hread] at ih
      obtain rfl : after = [] := hend
      rw [List.cons_append, readQuoted, if_neg hc, if_neg hback, ih (fun hrest => h (.char hback hc hrest)) rfl]
      exact fun _ _ h => absurd h hback

theorem readTripleQuoted_append_of_closed {t : Text} (h : tripleMark <:+: t)
    (hend : (readTripleQuoted t).2 = []) (more : Text) :
    readTripleQuoted (t ++ more) = ((readTripleQuoted t).1, more) := by
  fun_induction readTripleQuoted t with
  | case1 => exact absurd h (by decide)
  | case2 rest =>
      obtain rfl : rest = [] := hend
      rfl
  | case3 c rest hstart content after hread ih =>
      rw [hread] at ih
      obtain rfl : after = [] := hend
      have hrest : tripleMark <:+: rest := by
        rcases List.infix_cons_iff.mp h with ⟨behind, hbehind⟩ | hrest
        · obtain ⟨hc, hpair⟩ := List.cons.inj hbehind
          exact absurd hpair.symm (hstart behind hc.symm)
        · exact hrest
      have hlength : 3 ≤ rest.length := hrest.length_le
      rw [List.cons_append, readTripleQuoted, ih hrest rfl]
      rintro behind hc hbehind
      match rest, hlength with
      | d :: d' :: rest, _ =>
          obtain ⟨rfl, hpair⟩ := List.cons.inj hbehind
          obtain ⟨rfl, -⟩ := List.cons.inj hpair
          exact hstart rest hc rfl

end SchemaDiagram
