import Criteria.Order.Compile
import Criteria.Proofs.Order.Reading
import Criteria.Proofs.Sql.Atom

/-!
# What the written forms of an ordering list

A compiled ordering is written as the body of an `ORDER BY` or as the list of sort keys of a search.
Both forms are read back here. A database splits the body at its commas and takes each part for a
quoted path, a direction and perhaps a position of nulls; a search index takes each item for an
object with one path and its options. What they find are the clauses that were compiled, so none is
lost, merged with another one, or moved.

* `Sql.orderBy?`, `SortKey.ofDocument?` — the readers;
* `Sql.exists_trees_sql`, `SortKey.ofDocument?_document` — a clause is read back;
* `Sql.orderBy?_intercalate`, `Sorting.lists_of_isOf` — and so are all of them.
-/

namespace Criteria

/-! ### Reading the body of an `ORDER BY` -/

namespace Sql

/-- Whether a tree is a comma. -/
def Tree.isComma : Tree → Bool
  | .token .comma => true
  | _ => false

/-- The direction a word stands for. -/
def directionOf? (word : List Char) : Option Direction :=
  if word = "ASC".toList then some .ascending
  else if word = "DESC".toList then some .descending
  else none

/-- What is said about nulls behind a direction. -/
def nullsOf? : List Tree → Option (Option Nulls)
  | [] => some none
  | [.token (.word first), .token (.word second)] =>
    if first ≠ "NULLS".toList then none
    else if second = "FIRST".toList then some (some .first)
    else if second = "LAST".toList then some (some .last)
    else none
  | _ => none

/-- The segments of a path in the quotes of a dialect. -/
def quotePath (dialect : Dialect) (segments : List (List Char)) : String :=
  String.ofList (Text.join ['.'] (segments.map dialect.quoteSegment))

/-- The clause that trees between two commas are. -/
def sortKey? (dialect : Dialect) (trees : List Tree) : Option SortKey :=
  match column? trees with
  | some (segments, .token (.word direction) :: rest) =>
    (directionOf? direction).bind fun direction =>
      (nullsOf? rest).map fun nulls => ⟨quotePath dialect segments, direction, nulls⟩
  | _ => none

/-- The clauses that the body of an `ORDER BY` lists. -/
def orderBy? (dialect : Dialect) (text : String) : Option (List SortKey) :=
  ((lexemes? dialect text.toList).bind group?).bind fun trees =>
    (trees.splitOnP Tree.isComma).mapM (sortKey? dialect)

end Sql

/-! ### Reading the sort keys of a search -/

namespace SortKey

/-- Where the option of a sort key puts documents without the field. -/
def nullsOfMissing? : Option Json → Option (Option Nulls)
  | none => some none
  | some (.string "_first") => some (some .first)
  | some (.string "_last") => some (some .last)
  | some _ => none

/-- The clause that a sort key of a search is: one path, with a direction among its options. -/
def ofDocument? : Json → Option SortKey
  | .object [(path, .object options)] =>
    ((options.lookup "order").bind Json.asString?).bind fun word =>
      (Direction.ofWord? word).bind fun direction =>
        (nullsOfMissing? (options.lookup "missing")).map fun nulls => ⟨path, direction, nulls⟩
  | _ => none

/-- A clause names a column in the spelling of an adapter, and says something about nulls or
nothing. -/
structure IsOf (adapter : Adapter) (key : SortKey) : Prop where
  /-- The column is a native reference. -/
  column : ∃ reference, key.column = adapter.quote reference
  /-- Nulls are not left to the backend in so many words. -/
  nulls : key.nulls ≠ some .unspecified

theorem isOf_ofField (adapter : Adapter) (field : Field) (direction : Direction) (nulls : Nulls) :
    (ofField adapter field direction nulls).IsOf adapter := by
  refine ⟨⟨field.reference, rfl⟩, ?_⟩
  unfold ofField
  split
  · simp
  · next hnulls =>
    intro h
    rw [Option.some.inj h] at hnulls
    exact hnulls rfl

/-- **A sort key is read back as its clause.** -/
theorem ofDocument?_document {adapter : Adapter} {key : SortKey} (h : key.IsOf adapter) :
    ofDocument? key.document = some key := by
  obtain ⟨column, direction, nulls⟩ := key
  have hword : Direction.ofWord? direction.word = some direction :=
    Direction.ofWord?_eq_some_iff.2 rfl
  have hmissing : nullsOfMissing?
      ((("order", Json.string direction.word) :: missing nulls).lookup "missing") =
        some nulls := by
    match nulls with
    | none => rfl
    | some .first => rfl
    | some .last => rfl
    | some .unspecified => exact absurd rfl h.nulls
  change ((Direction.ofWord? direction.word).bind fun direction =>
    (nullsOfMissing? _).map fun nulls => (⟨column, direction, nulls⟩ : SortKey)) = _
  rw [hword, Option.bind_some, hmissing, Option.map_some]

theorem mapM_ofDocument? {adapter : Adapter} {keys : List SortKey}
    (h : ∀ key ∈ keys, key.IsOf adapter) :
    (keys.map document).mapM ofDocument? = some keys := by
  induction keys with
  | nil => rfl
  | cons key keys ih =>
    obtain ⟨hkey, hkeys⟩ := List.forall_mem_cons.1 h
    rw [List.map_cons, List.mapM_cons, ofDocument?_document hkey, ih hkeys]
    rfl

end SortKey

/-! ### The text of an `ORDER BY` -/

namespace Sql

variable {dialect : Dialect}

/-- Splitting at separators gives back what was put between them. -/
theorem splitOnP_intercalate {α : Type} {p : α → Bool} {separator : α}
    (hseparator : p separator = true) {parts : List (List α)}
    (hparts : ∀ part ∈ parts, ∀ item ∈ part, p item = false) (hne : parts ≠ []) :
    ([separator].intercalate parts).splitOnP p = parts := by
  induction parts with
  | nil => exact absurd rfl hne
  | cons part parts ih =>
    obtain ⟨hpart, hrest⟩ := List.forall_mem_cons.1 hparts
    cases parts with
    | nil =>
      rw [List.intercalate_singleton]
      exact List.splitOnP_eq_singleton hpart
    | cons next parts =>
      rw [List.intercalate_cons_cons, List.append_assoc, List.singleton_append,
        List.splitOnP_append_cons _ _ hseparator, List.splitOnP_eq_singleton hpart,
        ih hrest (List.cons_ne_nil _ _), List.singleton_append]

/-- The trees of the words for a direction. -/
def directionTree (direction : Direction) : Tree :=
  .token (.word (SortKey.directionKeyword direction).toList)

/-- The trees of what is said about nulls. -/
def nullsTrees : Option Nulls → List Tree
  | some .first => [.token (.word "NULLS".toList), .token (.word "FIRST".toList)]
  | some .last => [.token (.word "NULLS".toList), .token (.word "LAST".toList)]
  | _ => []

theorem isComma_of_mem_columnTrees {reference : String} {tree : Tree}
    (h : tree ∈ columnTrees reference) : tree.isComma = false := by
  obtain ⟨token, htoken, rfl⟩ := List.mem_map.1 h
  rcases mem_pathTokens htoken with rfl | ⟨segment, rfl⟩ <;> rfl

/-- The lexemes of a clause: its column, its direction, and what it says about nulls. -/
theorem lexes_sql {reference : String} {key : SortKey}
    (hcolumn : key.column = dialect.quote reference) :
    Lexes dialect key.sql.toList (flattenAll
      (columnTrees reference ++ directionTree key.direction :: nullsTrees key.nulls)) := by
  obtain ⟨column, direction, nulls⟩ := key
  obtain rfl : column = dialect.quote reference := hcolumn
  have hdirection : Lexes dialect (SortKey.directionKeyword direction).toList
      (flattenAll [directionTree direction]) := by
    cases direction <;> exact Lexes.keyword (by decide) (by decide)
  have hplain := (lexes_column dialect reference).blank hdirection
  have hword : ∀ word : String, word.toList ≠ [] → word.toList.all Char.isAlpha = true →
      Lexes dialect word.toList [.token (.word word.toList)] := fun _ => Lexes.keyword
  have hmark := hword "NULLS" (by decide) (by decide)
  match nulls with
  | none => simpa [SortKey.sql, nullsTrees] using hplain
  | some .unspecified => simpa [SortKey.sql, nullsTrees] using hplain
  | some .first =>
    have hfirst := hplain.blank (hmark.blank (hword "FIRST" (by decide) (by decide)))
    simpa [SortKey.sql, nullsTrees] using hfirst
  | some .last =>
    have hlast := hplain.blank (hmark.blank (hword "LAST" (by decide) (by decide)))
    simpa [SortKey.sql, nullsTrees] using hlast

theorem directionOf?_keyword (direction : Direction) :
    directionOf? (SortKey.directionKeyword direction).toList = some direction := by
  cases direction <;> decide

theorem nullsOf?_nullsTrees {nulls : Option Nulls} (h : nulls ≠ some .unspecified) :
    nullsOf? (nullsTrees nulls) = some nulls := by
  match nulls with
  | none => rfl
  | some .first => rfl
  | some .last => rfl
  | some .unspecified => exact absurd rfl h

theorem isComma_of_mem_nullsTrees {nulls : Option Nulls} {tree : Tree}
    (h : tree ∈ nullsTrees nulls) : tree.isComma = false := by
  obtain ⟨text, rfl⟩ : ∃ text, tree = .token (.word text) := by
    unfold nullsTrees at h
    split at h <;> simp only [List.mem_cons, List.not_mem_nil, or_false] at h
    · rcases h with rfl | rfl <;> exact ⟨_, rfl⟩
    · rcases h with rfl | rfl <;> exact ⟨_, rfl⟩
  rfl

/-- **A clause is read back.** Its text is one part between commas. -/
theorem exists_trees_sql {key : SortKey} (h : key.IsOf (.sql dialect)) :
    ∃ trees, Lexes dialect key.sql.toList (flattenAll trees) ∧
      (∀ tree ∈ trees, tree.isComma = false) ∧ sortKey? dialect trees = some key := by
  obtain ⟨⟨reference, hcolumn⟩, hnulls⟩ := h
  refine ⟨_, lexes_sql hcolumn, fun tree htree => ?_, ?_⟩
  · rcases List.mem_append.1 htree with htree | htree
    · exact isComma_of_mem_columnTrees htree
    · rcases List.mem_cons.1 htree with rfl | htree
      · rfl
      · exact isComma_of_mem_nullsTrees htree
  · -- the column ends in front of the direction, which is no dot
    have hdot : ∀ others,
        directionTree key.direction :: nullsTrees key.nulls ≠ .token .dot :: others := by
      simp [directionTree]
    have hread := column?_columnTrees reference hdot
    have hpath : quotePath dialect (Text.split '.' reference.toList) = key.column := hcolumn.symm
    rw [sortKey?, hread]
    simp only [directionTree]
    rw [directionOf?_keyword, Option.bind_some, nullsOf?_nullsTrees hnulls, Option.map_some, hpath]

/-- Clauses with commas between them are read one by one. -/
theorem exists_trees_intercalate {keys : List SortKey} (h : ∀ key ∈ keys, key.IsOf (.sql dialect))
    (hne : keys ≠ []) :
    ∃ parts, Lexes dialect (String.intercalate ", " (keys.map SortKey.sql)).toList
        (flattenAll ([.token .comma].intercalate parts)) ∧
      (∀ part ∈ parts, ∀ tree ∈ part, tree.isComma = false) ∧
        parts.mapM (sortKey? dialect) = some keys := by
  induction keys with
  | nil => exact absurd rfl hne
  | cons key keys ih =>
    obtain ⟨hkey, hkeys⟩ := List.forall_mem_cons.1 h
    obtain ⟨trees, htrees, hcomma, hread⟩ := exists_trees_sql hkey
    cases keys with
    | nil =>
      refine ⟨[trees], ?_, List.forall_mem_singleton.2 hcomma, ?_⟩
      · simpa using htrees
      · rw [List.mapM_cons, hread]
        rfl
    | cons next keys =>
      obtain ⟨parts, hparts, hcommas, hreads⟩ := ih hkeys (List.cons_ne_nil _ _)
      -- the parts are at least one, so a comma stands in front of them
      obtain ⟨part, parts, rfl⟩ : ∃ part others, parts = part :: others := by
        cases parts with
        | nil => cases hreads
        | cons part others => exact ⟨part, others, rfl⟩
      refine ⟨trees :: part :: parts, ?_, List.forall_mem_cons.2 ⟨hcomma, hcommas⟩, ?_⟩
      · have hboth := htrees.separate .comma (Lexes.nil.blank hparts)
        simpa [String.intercalate_cons_cons, List.intercalate_cons_cons] using hboth
      · rw [List.mapM_cons, hread, hreads]
        rfl

/-- **The body of an `ORDER BY` is read back as the clauses it was written for.** -/
theorem orderBy?_intercalate {keys : List SortKey} (h : ∀ key ∈ keys, key.IsOf (.sql dialect))
    (hne : keys ≠ []) :
    orderBy? dialect (String.intercalate ", " (keys.map SortKey.sql)) = some keys := by
  obtain ⟨parts, hlexes, hcomma, hread⟩ := exists_trees_intercalate h hne
  have hparts : parts ≠ [] := by
    rintro rfl
    exact hne (Option.some.inj hread).symm
  rw [orderBy?, lexemes?_eq_some_iff.2 hlexes, Option.bind_some, group?_eq_some_iff.2 rfl,
    Option.bind_some, splitOnP_intercalate rfl hcomma hparts, hread]

end Sql

/-! ### Both forms -/

namespace Sorting

/-- The written form of an ordering lists its clauses, one by one and in their order: the body of an
`ORDER BY` if there is any clause, and the sort keys of a search. -/
def Lists (sorting : Sorting) : Prop :=
  match sorting.adapter with
  | .sql dialect =>
    (sorting.keys = [] → sorting.sql? = none) ∧
      (sorting.keys ≠ [] →
        ∃ text, sorting.sql? = some text ∧ Sql.orderBy? dialect text = some sorting.keys)
  | .search =>
    sorting.sql? = none ∧
      ∃ items, sorting.document = .array items ∧
        items.mapM SortKey.ofDocument? = some sorting.keys

theorem lists_of_isOf {sorting : Sorting} (h : ∀ key ∈ sorting.keys, key.IsOf sorting.adapter) :
    sorting.Lists := by
  obtain ⟨adapter, keys⟩ := sorting
  cases adapter with
  | sql dialect =>
    constructor
    · rintro rfl
      rfl
    · intro hne
      have htext : (⟨.sql dialect, keys⟩ : Sorting).sql? =
          some (String.intercalate ", " (keys.map SortKey.sql)) := by
        simp [sql?, isEmpty, Adapter.isSql, hne]
      exact ⟨_, htext, Sql.orderBy?_intercalate h hne⟩
  | search =>
    refine ⟨?_, _, rfl, SortKey.mapM_ofDocument? h⟩
    simp [sql?, Adapter.isSql]

end Sorting

end Criteria
