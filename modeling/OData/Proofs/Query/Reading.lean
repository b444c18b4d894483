import OData.Proofs.Part
import OData.Proofs.Path
import OData.Proofs.Token.Refusal
import OData.Query.Reader

/-!
# What reading a query gives

A query is read exactly if each of its options is, and then holds what the six
readers give.  Otherwise the error is that of the first option that cannot be
read, in the order of `Part.all`, and it names that option.
-/

namespace OData

namespace Query

/-- Read one option and forget what it says. -/
def readPart (maxNesting : Nat) (options : Options) : Part → Except SyntaxError Unit
  | .filter => (Expr.read maxNesting options.filter).map fun _ => ()
  | .orderBy => (readOrderBy options.orderBy).map fun _ => ()
  | .top => (readTop options.top).map fun _ => ()
  | .skip => (readSkip options.skip).map fun _ => ()
  | .select => (readSelect options.select).map fun _ => ()
  | .expand => (readExpand options.expand).map fun _ => ()

/-- A query that holds what the readers of the options give. -/
structure Holds (maxNesting : Nat) (options : Options) (query : Query) : Prop where
  filter : Expr.read maxNesting options.filter = .ok query.filter
  orderBy : readOrderBy options.orderBy = .ok query.orderBy
  top : readTop options.top = .ok query.top
  skip : readSkip options.skip = .ok query.skip
  select : readSelect options.select = .ok query.select
  expand : readExpand options.expand = .ok query.expand

variable {maxNesting : Nat} {options : Options}

/-! ## Success -/

theorem outcome_readOption {α : Type} (part : Part) (outcome : Except SyntaxError α) :
    (readOption part outcome).outcome = outcome := by
  cases outcome with
  | error error => rfl
  | ok value => rfl

/-- The readers in sequence, without what they tell. -/
theorem outcome_read :
    (read maxNesting options).outcome = do
      let filter ← Expr.read maxNesting options.filter
      let orderBy ← readOrderBy options.orderBy
      let top ← readTop options.top
      let skip ← readSkip options.skip
      let select ← readSelect options.select
      let expand ← readExpand options.expand
      return ⟨filter, orderBy, top, skip, select, expand⟩ := by
  simp only [read, readOptions, Logged.outcome_conclude, Logged.outcome_bind, outcome_readOption,
    Logged.outcome_pure]
  rfl

/-- A query is read exactly if it holds what all readers give. -/
theorem read_eq_ok_iff {query : Query} :
    (read maxNesting options).outcome = .ok query ↔ Holds maxNesting options query := by
  simp only [outcome_read, Except.bind_eq_ok_iff]
  constructor
  · rintro ⟨filter, ofFilter, orderBy, ofOrderBy, top, ofTop, skip, ofSkip, select, ofSelect,
      expand, ofExpand, whole⟩
    cases whole
    exact ⟨ofFilter, ofOrderBy, ofTop, ofSkip, ofSelect, ofExpand⟩
  · intro holds
    exact ⟨_, holds.filter, _, holds.orderBy, _, holds.top, _, holds.skip, _, holds.select,
      _, holds.expand, rfl⟩

/-! ## Failure -/

/-- Whether a sequence fails does not depend on the values of its steps, if the
rest does not. -/
theorem bind_eq_error_congr {α β γ : Type} {first : Except SyntaxError α}
    {more : α → Except SyntaxError β} {other : Unit → Except SyntaxError γ} {error : SyntaxError}
    (same : ∀ value, more value = .error error ↔ other () = .error error) :
    first >>= more = .error error ↔
      (first.map fun _ => ()) >>= other = .error error := by
  cases first with
  | error _ => exact ⟨by rintro ⟨⟩; rfl, by rintro ⟨⟩; rfl⟩
  | ok value => exact same value

/-- Reading a query fails as reading its options one after the other does. -/
theorem read_eq_error_iff_forM {error : SyntaxError} :
    (read maxNesting options).outcome = .error error ↔
      Part.all.forM (readPart maxNesting options) = .error error := by
  rw [outcome_read]
  apply bind_eq_error_congr
  intro filter
  apply bind_eq_error_congr
  intro orderBy
  apply bind_eq_error_congr
  intro top
  apply bind_eq_error_congr
  intro skip
  apply bind_eq_error_congr
  intro select
  apply bind_eq_error_congr
  intro expand
  constructor
  · rintro ⟨⟩
  · rintro ⟨⟩

/-! ## Paths of terms -/

/-- The path of a term is read from exactly what it is written as. -/
theorem readPath_eq_ok_iff {part : Part} {term : Term} {text : List Char} {path : Path} :
    readPath part term text = .ok path ↔ text = path.written.toList := by
  rw [← String.toList_ofList (l := text), String.toList_inj, ← Path.read?_eq_some_iff,
    String.toList_ofList, readPath]
  cases Path.read? (String.ofList text) with
  | some other => simp
  | none => simp [refuse]

/-- A text with the form of a path is read as its path. -/
theorem exists_readPath_of_fits {text : List Char} (fits : Path.fits text) (part : Part)
    (term : Term) : ∃ path, readPath part term text = .ok path := by
  rw [← String.toList_ofList (l := text), Path.fits_iff_exists_read?] at fits
  rcases fits with ⟨path, isPath⟩
  exact ⟨path, by rw [readPath, isPath]⟩

/-! ## The place that an error names -/

theorem part_of_readFilter {source : String} {error : SyntaxError}
    (failed : Expr.read maxNesting source = .error error) : error.part = .filter := by
  unfold Expr.read at failed
  split at failed
  · cases failed
  · rcases Except.bind_eq_error_iff.mp failed with refused | ⟨tokens, _, failed⟩
    · exact (Token.sticks_of_tokensFrom refused).part_and_cause.1
    · rcases Except.mapError_eq_error_iff.mp (Except.map_eq_error_iff.mp failed) with
        ⟨failure, _, rfl⟩
      rfl

theorem place_of_readPath {part : Part} {term : Term} {text : List Char} {error : SyntaxError}
    (refused : readPath part term text = .error error) :
    error.part = part ∧ error.offset = some term.offset := by
  unfold readPath refuse at refused
  split at refused
  · cases refused
  · cases refused
    exact ⟨rfl, rfl⟩

theorem place_of_readOrderTerm {term : Term} {error : SyntaxError}
    (refused : readOrderTerm term = .error error) :
    error.part = .orderBy ∧ error.offset = some term.offset := by
  unfold readOrderTerm refuse at refused
  dsimp only at refused
  split at refused
  · exact place_of_readPath (Except.map_eq_error_iff.mp refused)
  · cases refused
    exact ⟨rfl, rfl⟩

theorem place_of_readSelectTerm {term : Term} {error : SyntaxError}
    (refused : readSelectTerm term = .error error) :
    error.part = .select ∧ error.offset = some term.offset := by
  unfold readSelectTerm refuse at refused
  split at refused
  · cases refused
  · split at refused
    · exact place_of_readPath (Except.map_eq_error_iff.mp refused)
    · cases refused
      exact ⟨rfl, rfl⟩

theorem place_of_readExpandTerm {term : Term} {error : SyntaxError}
    (refused : readExpandTerm term = .error error) :
    error.part = .expand ∧ error.offset = some term.offset := by
  unfold readExpandTerm refuse at refused
  split at refused
  · exact place_of_readPath refused
  · cases refused
    exact ⟨rfl, rfl⟩

theorem place_of_readNumber {part : Part} {raw : String} {error : SyntaxError}
    (refused : readNumber part raw = .error error) : error.part = part ∧ error.offset = none := by
  unfold readNumber at refused
  dsimp only at refused
  split at refused
  · cases refused
  · split at refused
    · cases refused
    · cases refused
      exact ⟨rfl, rfl⟩

theorem place_of_readTop {raw : String} {error : SyntaxError}
    (refused : readTop raw = .error error) : error.part = .top ∧ error.offset = none := by
  unfold readTop at refused
  rcases Except.bind_eq_error_iff.mp refused with refused | ⟨top, _, refused⟩
  · exact place_of_readNumber refused
  · split at refused
    · cases refused
      exact ⟨rfl, rfl⟩
    · cases refused

/-- The error of a reader names the option that it reads. -/
theorem part_of_readPart {part : Part} {error : SyntaxError}
    (failed : readPart maxNesting options part = .error error) : error.part = part := by
  cases part with
  | filter => exact part_of_readFilter (Except.map_eq_error_iff.mp failed)
  | orderBy =>
      rcases Except.exists_mem_of_mapM_eq_error (Except.map_eq_error_iff.mp failed) with
        ⟨term, _, failed⟩
      exact (place_of_readOrderTerm failed).1
  | top => exact (place_of_readTop (Except.map_eq_error_iff.mp failed)).1
  | skip => exact (place_of_readNumber (Except.map_eq_error_iff.mp failed)).1
  | select =>
      rcases Except.exists_mem_of_mapM_eq_error (Except.map_eq_error_iff.mp failed) with
        ⟨term, _, failed⟩
      exact (place_of_readSelectTerm failed).1
  | expand =>
      rcases Except.exists_mem_of_mapM_eq_error (Except.map_eq_error_iff.mp failed) with
        ⟨term, _, failed⟩
      exact (place_of_readExpandTerm failed).1

/-- Reading a query fails with the error of the first option that cannot be
read. -/
theorem read_eq_error_iff {error : SyntaxError} :
    (read maxNesting options).outcome = .error error ↔
      ∃ part, part.IsFirst (fun part => ∃ error, readPart maxNesting options part = .error error) ∧
        readPart maxNesting options part = .error error := by
  rw [read_eq_error_iff_forM, Part.forM_all_eq_error_iff]

/-- A number of results that is read is not zero. -/
theorem ne_zero_of_readTop {raw : String} {top : Option Nat} (isRead : readTop raw = .ok top) :
    top ≠ some 0 := by
  unfold readTop at isRead
  rcases Except.bind_eq_ok_iff.mp isRead with ⟨number, _, isRead⟩
  split at isRead
  · cases isRead
  · next nonzero =>
      cases isRead
      exact nonzero

end Query

end OData
