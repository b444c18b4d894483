import OData.Proofs.Form
import OData.Proofs.Last
import OData.Query.Options

/-!
# Options of a request

Pairs with a key that no option has are passed over, and of several pairs with
the key of one option the last counts, so among any pairs each option has the
value of its last pair or an empty text.  A query string gives the options of
the pairs that were form-encoded in it, with or without a question mark in
front.
-/

namespace OData

theorem Part.ofKey?_eq_some_iff {text : String} {part : Part} :
    Part.ofKey? text = some part ↔ text = part.key := by
  constructor
  · intro found
    rw [Part.ofKey?] at found
    have same := List.find?_some found
    exact (eq_of_beq same).symm
  · rintro rfl
    exact part.ofKey?_key

namespace Options

variable {pairs : List (String × String)}

/-- The options give for each part the value of the last pair with its key, and
an empty text where there is none. -/
structure KeepLast (pairs : List (String × String)) (options : Options) : Prop where
  given {part : Part} {pair : String × String} :
    IsLast (fun pair => pair.1 = part.key) pairs pair → options.get part = pair.2
  missing {part : Part} : (∀ pair ∈ pairs, pair.1 ≠ part.key) → options.get part = ""

@[simp]
theorem get_setKey_self (options : Options) (part : Part) (text : String) :
    (options.setKey part.key text).get part = text := by
  simp [setKey]

/-- A pair changes no option but the one with its key. -/
theorem get_setKey_of_ne {part : Part} (options : Options) (pair : String × String)
    (differ : pair.1 ≠ part.key) :
    (options.setKey pair.1 pair.2).get part = options.get part := by
  cases found : Part.ofKey? pair.1 with
  | none => rw [setKey, found]
  | some other =>
      have isOther : other ≠ part := by
        rintro rfl
        exact differ (Part.ofKey?_eq_some_iff.mp found)
      rw [setKey, found]
      exact get_set_of_ne isOther

/-- The last pair with the key of an option decides its text. -/
theorem keepLast_ofPairs (pairs : List (String × String)) : (ofPairs pairs).KeepLast pairs where
  given {part pair} last := by
    have sets : ∀ options : Options, (options.setKey pair.1 pair.2).get part = pair.2 := by
      intro options
      rw [last.holds, get_setKey_self]
    exact view_foldl_of_isLast (fun options : Options => options.get part) get_setKey_of_ne sets
      last {}
  missing {part} others := by
    rw [ofPairs, view_foldl_of_forall_not (fun options : Options => options.get part)
      get_setKey_of_ne others, get_empty]

theorem eq_of_get_eq {left right : Options} (same : ∀ part, left.get part = right.get part) :
    left = right := by
  have filter := same .filter
  have orderBy := same .orderBy
  have top := same .top
  have skip := same .skip
  have select := same .select
  have expand := same .expand
  cases left
  cases right
  simp_all only [get]

/-- No other options keep the last values of these pairs. -/
theorem keepLast_iff {options : Options} : options.KeepLast pairs ↔ options = ofPairs pairs := by
  constructor
  · intro keepLast
    apply eq_of_get_eq
    intro part
    by_cases found : ∃ pair ∈ pairs, pair.1 = part.key
    · rcases found with ⟨pair, member, isKey⟩
      have someLast : ∃ last, IsLast (fun pair => pair.1 = part.key) pairs last :=
        exists_isLast_of_mem member isKey
      rcases someLast with ⟨last, isLast⟩
      rw [keepLast.given isLast, (keepLast_ofPairs pairs).given isLast]
    · have others : ∀ pair ∈ pairs, pair.1 ≠ part.key :=
        fun pair member isKey => found ⟨pair, member, isKey⟩
      rw [keepLast.missing others, (keepLast_ofPairs pairs).missing others]
  · rintro rfl
    exact keepLast_ofPairs pairs

/-- A question mark in front of a form is not part of it. -/
theorem ofQueryString_of_toList {form : List Char} (noMark : '?' ∉ form) {text : String}
    (written : text.toList = form ∨ text.toList = '?' :: form) :
    ofQueryString text = ofPairs (Form.decode form) := by
  rcases written with same | marked
  · cases form with
    | nil => rw [ofQueryString, same]
    | cons first form =>
        have notMark : first ≠ '?' := fun isMark => noMark (isMark ▸ List.mem_cons_self)
        simp only [ofQueryString, same]
        split
        · next isMark => exact absurd (List.cons.inj isMark).1 notMark
        · rfl
  · simp only [ofQueryString, marked]

/-- A query string gives the options of the pairs that are encoded in it: of
each option the last value, and an empty text where there is none. -/
theorem ofQueryString_of_encodes {form : List Char} (encodes : Form.Encodes pairs form)
    {text : String} (written : text.toList = form ∨ text.toList = '?' :: form) :
    ofQueryString text = ofPairs pairs ∧ (ofQueryString text).KeepLast pairs := by
  have read : ofQueryString text = ofPairs pairs := by
    rw [ofQueryString_of_toList (Form.questionMark_notMem_of_encodes encodes) written,
      Form.decode_of_encodes encodes]
  exact ⟨read, keepLast_iff.mpr read⟩

/-- A key that is given twice, a key that lacks its dollar sign, a space that is
a plus, a plus that is escaped and hexadecimal digits in both cases. -/
theorem ofQueryString_top_given_twice :
    Form.Encodes [("$top", "1"), ("top", "9"), ("$top", "é +")]
        "%24top=1&top=9&%24top=%c3%A9+%2b".toList ∧
      ofQueryString "?%24top=1&top=9&%24top=%c3%A9+%2b" =
        ofPairs [("$top", "1"), ("top", "9"), ("$top", "é +")] ∧
      (ofQueryString "?%24top=1&top=9&%24top=%c3%A9+%2b").top = "é +" := by
  have top : Form.EncodesText "top" "top".toList :=
    .plain rfl rfl (.plain rfl rfl (.plain rfl rfl .nil))
  have dollarTop : Form.EncodesText "$top" "%24top".toList :=
    .escaped (.inl rfl) (.inl rfl) top
  have one : Form.EncodesText "1" "1".toList := .plain rfl rfl .nil
  have nine : Form.EncodesText "9" "9".toList := .plain rfl rfl .nil
  have mixed : Form.EncodesText "é +" "%c3%A9+%2b".toList :=
    .escaped (.inl rfl) (.inl rfl) (.escaped (.inr rfl) (.inl rfl)
      (.space (.escaped (.inl rfl) (.inl rfl) .nil)))
  have encodes : Form.Encodes [("$top", "1"), ("top", "9"), ("$top", "é +")]
      "%24top=1&top=9&%24top=%c3%A9+%2b".toList :=
    ⟨_, .cons ⟨_, _, dollarTop, one, rfl⟩ (.cons ⟨_, _, top, nine, rfl⟩
      (.cons ⟨_, _, dollarTop, mixed, rfl⟩ .nil)), rfl⟩
  have marked : "?%24top=1&top=9&%24top=%c3%A9+%2b".toList =
      '?' :: "%24top=1&top=9&%24top=%c3%A9+%2b".toList := rfl
  have read := (ofQueryString_of_encodes encodes (.inr marked)).1
  exact ⟨encodes, read, by rw [read]; rfl⟩

end Options

end OData
