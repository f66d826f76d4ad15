import Criteria.Proofs.Text.Span
import Criteria.TypeGraph.Basic
import Mathlib.Data.List.Forall2

/-!
# How a reference spells a type

A reference to a type is its name with any number of list brackets and marks of required values
around it, and with blanks wherever two tokens meet. The marks say how values come, and the graph
drops them: a reference leads to the type that it names.

Blanks are dropped in two passes. The first one drops blanks of every kind around the whole
reference, the second one drops the marks together with spaces. So a tab or a line break inside of
the brackets is not dropped: it ends the second pass, and what is left is not the name. `IsSpaced`
is the exact condition.

* `Spells` — the references that spell a name;
* `namedType_eq_iff` — a reference leads to its name if the blanks inside of it are spaces, and only
  then;
* `collect_eq_eraseDups` — a node refers to every type that it mentions once;
* `references_of_spellings` — both, for the references of a node.
-/

namespace Criteria

variable {name chars : List Char} {reference : String}

/-! ### Spellings -/

/-- The name of a type: it is not empty, and has neither blanks nor marks in it. -/
structure IsTypeName (name : List Char) : Prop where
  nonempty : name ≠ []
  solid : ∀ c ∈ name, Text.isBlank c = false
  unmarked : ∀ c ∈ name, c ≠ '[' ∧ c ≠ ']' ∧ c ≠ '!'

/-- A text spells a reference to the type with a name. -/
inductive Spells (name : List Char) : List Char → Prop
  /-- The name itself. -/
  | name : Spells name name
  /-- A list of what is referred to. -/
  | list {chars : List Char} (spells : Spells name chars) : Spells name ('[' :: (chars ++ [']']))
  /-- What is referred to is required. -/
  | required {chars : List Char} (spells : Spells name chars) : Spells name (chars ++ ['!'])
  /-- Blanks between tokens, or around the whole. -/
  | spaced {before chars after : List Char} (hbefore : Text.IsGap before)
      (spells : Spells name chars) (hafter : Text.IsGap after) :
    Spells name (before ++ chars ++ after)

/-- All blanks that a reference has inside are spaces. -/
def IsSpaced (reference : String) : Prop :=
  ∀ c ∈ (Text.trim reference).toList, Text.isBlank c = true → c = ' '

instance (reference : String) : Decidable (IsSpaced reference) :=
  List.decidableBAll (fun c => Text.isBlank c = true → c = ' ') (Text.trim reference).toList

/-- A character that may stand around a name. -/
def IsAround (c : Char) : Prop := Text.isBlank c = true ∨ c = '[' ∨ c = ']' ∨ c = '!'

theorem Spells.exists_around (h : Spells name chars) :
    ∃ lead trail, chars = lead ++ name ++ trail ∧ (∀ c ∈ lead, IsAround c) ∧
      ∀ c ∈ trail, IsAround c := by
  induction h with
  | name => exact ⟨[], [], (List.append_nil name).symm, nofun, nofun⟩
  | list _ ih =>
    obtain ⟨lead, trail, rfl, hlead, htrail⟩ := ih
    refine ⟨'[' :: lead, trail ++ [']'], by simp, ?_, ?_⟩
    · exact List.forall_mem_cons.2 ⟨.inr (.inl rfl), hlead⟩
    · exact List.forall_mem_append.2 ⟨htrail, by simp [IsAround]⟩
  | required _ ih =>
    obtain ⟨lead, trail, rfl, hlead, htrail⟩ := ih
    refine ⟨lead, trail ++ ['!'], by simp, hlead, ?_⟩
    exact List.forall_mem_append.2 ⟨htrail, by simp [IsAround]⟩
  | @spaced before chars after hbefore _ hafter ih =>
    obtain ⟨lead, trail, rfl, hlead, htrail⟩ := ih
    refine ⟨before ++ lead, trail ++ after, by simp, ?_, ?_⟩
    · exact List.forall_mem_append.2 ⟨fun c hc => .inl (hbefore c hc), hlead⟩
    · exact List.forall_mem_append.2 ⟨htrail, fun c hc => .inl (hafter c hc)⟩

/-! ### What a reference leads to -/

theorem isTypeMark_iff {c : Char} :
    isTypeMark c = true ↔ c = '[' ∨ c = ']' ∨ c = '!' ∨ c = ' ' := by
  simp [isTypeMark, or_assoc]

/-- The only mark that is a blank is the space. -/
theorem eq_space_of_isTypeMark {c : Char} (hmark : isTypeMark c = true)
    (hblank : Text.isBlank c = true) : c = ' ' := by
  rcases isTypeMark_iff.1 hmark with rfl | rfl | rfl | rfl
  · cases hblank
  · cases hblank
  · cases hblank
  · rfl

theorem IsTypeName.isTypeMark_eq_false (h : IsTypeName name) {c : Char} (hc : c ∈ name) :
    isTypeMark c = false := by
  refine Bool.eq_false_iff.2 fun hmark => ?_
  obtain ⟨hopening, hclosing, hrequired⟩ := h.unmarked c hc
  rcases isTypeMark_iff.1 hmark with rfl | rfl | rfl | rfl
  · exact hopening rfl
  · exact hclosing rfl
  · exact hrequired rfl
  · cases h.solid ' ' hc

/-- A text of characters outside of a class neither begins nor ends with one of it. -/
theorem ends_of_forall {p : Char → Bool} (h : ∀ c ∈ chars, p c = false) :
    Text.Ends p chars ∧ Text.Ends p chars.reverse := by
  constructor
  · exact fun c hc => h c (List.mem_of_head? hc)
  · exact fun c hc => h c (List.mem_reverse.1 (List.mem_of_head? hc))

/-- What stands around a name is a mark, unless it is a blank other than the space. -/
theorem isTypeMark_of_isAround {c : Char} (haround : IsAround c)
    (hspace : Text.isBlank c = true → c = ' ') : isTypeMark c = true := by
  rcases haround with hblank | rfl | rfl | rfl
  · rw [hspace hblank]
    rfl
  · rfl
  · rfl
  · rfl

/-- The second pass leaves a name of what stands around it exactly if all blanks are spaces. -/
theorem strip_isTypeMark_iff {before after : List Char} (hname : IsTypeName name)
    (hbefore : ∀ c ∈ before, IsAround c) (hafter : ∀ c ∈ after, IsAround c) :
    Text.strip isTypeMark (before ++ name ++ after) = name ↔
      ∀ c ∈ before ++ name ++ after, Text.isBlank c = true → c = ' ' := by
  constructor
  · intro heq c hc hblank
    -- what the second pass drops are marks, and the name has no blanks
    obtain ⟨front, back, hsplit, hfront, hback⟩ :=
      Text.exists_strip isTypeMark (before ++ name ++ after)
    rw [hsplit, heq, List.mem_append, List.mem_append] at hc
    rcases hc with (hc | hc) | hc
    · exact eq_space_of_isTypeMark (hfront c hc) hblank
    · rw [hname.solid c hc] at hblank
      cases hblank
    · exact eq_space_of_isTypeMark (hback c hc) hblank
  · intro hspaced
    have hunmarked := ends_of_forall fun c hc => hname.isTypeMark_eq_false (c := c) hc
    apply Text.strip_append
    · exact fun c hc => isTypeMark_of_isAround (hbefore c hc) (hspaced c (by simp [hc]))
    · exact fun c hc => isTypeMark_of_isAround (hafter c hc) (hspaced c (by simp [hc]))
    · exact hname.nonempty
    · exact hunmarked.1
    · exact hunmarked.2

/-- **A reference leads to the name that it spells** exactly if the blanks inside of it are
spaces. -/
theorem namedType_eq_iff {name : String} (hname : IsTypeName name.toList)
    (h : Spells name.toList reference.toList) :
    namedType reference = name ↔ IsSpaced reference := by
  have htrim : (Text.trim reference).toList = Text.strip Text.isBlank reference.toList :=
    String.toList_ofList
  -- behind the first pass, the name still stands between marks and blanks
  obtain ⟨lead, trail, hreference, hlead, htrail⟩ := h.exists_around
  have hsolid := ends_of_forall hname.solid
  obtain ⟨before, after, hstrip, hbefore, hafter⟩ :=
    Text.exists_strip_around lead trail hname.nonempty hsolid.1 hsolid.2
  rw [← hreference, ← htrim] at hstrip
  rw [← String.toList_inj, namedType, String.toList_ofList, ← htrim, IsSpaced, hstrip]
  exact strip_isTypeMark_iff hname (fun c hc => hlead c (hbefore hc))
    fun c hc => htrail c (hafter hc)

/-- What a reference leads to holds the name that it spells. -/
theorem exists_namedType_around {name : String} (hname : IsTypeName name.toList)
    (h : Spells name.toList reference.toList) :
    ∃ lead trail, (namedType reference).toList = lead ++ name.toList ++ trail ∧
      (∀ c ∈ lead, IsAround c) ∧ ∀ c ∈ trail, IsAround c := by
  obtain ⟨lead, trail, hreference, hlead, htrail⟩ := h.exists_around
  have hsolid := ends_of_forall hname.solid
  have hunmarked := ends_of_forall fun c hc => hname.isTypeMark_eq_false (c := c) hc
  obtain ⟨lead₁, trail₁, hfirst, hlead₁, htrail₁⟩ :=
    Text.exists_strip_around lead trail hname.nonempty hsolid.1 hsolid.2
  obtain ⟨lead₂, trail₂, hsecond, hlead₂, htrail₂⟩ :=
    Text.exists_strip_around lead₁ trail₁ hname.nonempty hunmarked.1 hunmarked.2
  refine ⟨lead₂, trail₂, ?_, ?_, ?_⟩
  · rw [namedType, String.toList_ofList, hreference, hfirst, hsecond]
  · exact fun c hc => hlead c (hlead₁ (hlead₂ hc))
  · exact fun c hc => htrail c (htrail₁ (htrail₂ hc))

/-- A reference that spells a name leads to something. -/
theorem namedType_ne_empty {name : String} (hname : IsTypeName name.toList)
    (h : Spells name.toList reference.toList) : namedType reference ≠ "" := by
  intro hempty
  obtain ⟨lead, trail, htext, -, -⟩ := exists_namedType_around hname h
  rw [hempty, eq_comm, String.toList_empty, List.append_eq_nil_iff, List.append_eq_nil_iff] at htext
  exact hname.nonempty htext.1.2

/-- A type name leads to itself. -/
theorem namedType_of_isTypeName {name : String} (hname : IsTypeName name.toList) :
    namedType name = name := by
  refine (namedType_eq_iff hname .name).2 fun c hc hblank => ?_
  have hmem : c ∈ name.toList := by
    rw [Text.trim, String.toList_ofList] at hc
    exact (Text.strip_infix Text.isBlank name.toList).subset hc
  rw [hname.solid c hmem] at hblank
  cases hblank

/-- Around a name that leads to itself together with blanks and marks, there are none. -/
theorem eq_nil_of_ends_around {lead rest : List Char} (hlead : ∀ c ∈ lead, IsAround c)
    (hblank : Text.Ends Text.isBlank (lead ++ rest)) (hmark : Text.Ends isTypeMark (lead ++ rest)) :
    lead = [] := by
  cases lead with
  | nil => rfl
  | cons c lead =>
    have hsolid : Text.isBlank c = false := Text.ends_cons.1 hblank
    have hunmarked : isTypeMark c = false := Text.ends_cons.1 hmark
    rcases hlead c List.mem_cons_self with hc | rfl | rfl | rfl
    · rw [hc] at hsolid
      cases hsolid
    · cases hunmarked
    · cases hunmarked
    · cases hunmarked

/-- The name is the only text around it that leads to itself. -/
theorem eq_name_of_namedType_eq {name text : String} {lead trail : List Char}
    (htext : text.toList = lead ++ name.toList ++ trail) (hlead : ∀ c ∈ lead, IsAround c)
    (htrail : ∀ c ∈ trail, IsAround c) (h : namedType text = text) : text = name := by
  have hstrip : Text.strip isTypeMark (Text.strip Text.isBlank text.toList) = text.toList := by
    rw [← String.toList_ofList (l := Text.strip _ _)]
    exact congrArg String.toList h
  -- neither pass drops anything
  have hfirst : Text.strip Text.isBlank text.toList = text.toList := by
    have hinner := Text.strip_infix isTypeMark (Text.strip Text.isBlank text.toList)
    have houter := Text.strip_infix Text.isBlank text.toList
    rw [hstrip] at hinner
    exact houter.eq_of_length (Nat.le_antisymm houter.length_le hinner.length_le)
  rw [hfirst] at hstrip
  have hblank := Text.ends_strip Text.isBlank text.toList
  have hmark := Text.ends_strip isTypeMark text.toList
  rw [hfirst, htext] at hblank
  rw [hstrip, htext] at hmark
  -- so nothing that could be dropped stands in front of the name or behind it
  have hnolead : lead = [] := by
    rw [List.append_assoc] at hblank hmark
    exact eq_nil_of_ends_around hlead hblank.1 hmark.1
  have hnotrail : trail = [] := by
    rw [List.reverse_append] at hblank hmark
    have hreverse : ∀ c ∈ trail.reverse, IsAround c := by simpa using htrail
    exact List.reverse_eq_nil_iff.1 (eq_nil_of_ends_around hreverse hblank.2 hmark.2)
  rw [hnolead, hnotrail, List.nil_append, List.append_nil] at htext
  exact String.toList_inj.1 htext

/-- **A reference leads to what leads to itself** exactly if the blanks inside of it are spaces. -/
theorem namedType_namedType_iff {name : String} (hname : IsTypeName name.toList)
    (h : Spells name.toList reference.toList) :
    namedType (namedType reference) = namedType reference ↔ IsSpaced reference := by
  rw [← namedType_eq_iff hname h]
  constructor
  · intro hsame
    obtain ⟨lead, trail, hnamed, hlead, htrail⟩ := exists_namedType_around hname h
    exact eq_name_of_namedType_eq hnamed hlead htrail hsame
  · intro hnamed
    rw [hnamed]
    exact namedType_of_isTypeName hname

/-! ### The references of a node -/

/-- One more reference adds what it names, unless that is there already or is nothing. -/
theorem addReference_eraseDups (seen : List String) (reference : String) :
    TypeNode.addReference seen.eraseDups reference =
      (seen ++ [namedType reference].filter (· ≠ "")).eraseDups := by
  unfold TypeNode.addReference
  by_cases hempty : namedType reference = ""
  · simp [hempty]
  · by_cases hmem : namedType reference ∈ seen
    · simp [hempty, hmem, List.eraseDups_append, List.removeAll]
    · simp [hempty, hmem, List.eraseDups_append, List.removeAll, List.eraseDups_cons]

theorem foldl_addReference (references seen : List String) :
    references.foldl TypeNode.addReference seen.eraseDups =
      (seen ++ (references.map namedType).filter (· ≠ "")).eraseDups := by
  induction references generalizing seen with
  | nil => simp
  | cons reference references ih =>
    rw [List.foldl_cons, addReference_eraseDups, ih, List.append_assoc, ← List.filter_append,
      List.singleton_append, ← List.map_cons]

/-- A node refers to every type that it mentions once, in the order of their first mention. -/
theorem collect_eq_eraseDups (references : List String) :
    TypeNode.collect references = ((references.map namedType).filter (· ≠ "")).eraseDups :=
  foldl_addReference references []

section References

variable {names references : List String}

/-- References that are spaced lead to the names that they spell. -/
theorem map_namedType (hnames : ∀ name ∈ names, IsTypeName name.toList)
    (h : List.Forall₂ (fun name reference => Spells name.toList reference.toList) names references)
    (hspaced : ∀ reference ∈ references, IsSpaced reference) :
    references.map namedType = names := by
  induction h with
  | nil => rfl
  | cons hspells _ ih =>
    obtain ⟨hname, hnames⟩ := List.forall_mem_cons.1 hnames
    obtain ⟨hfirst, hspaced⟩ := List.forall_mem_cons.1 hspaced
    rw [List.map_cons, ih hnames hspaced, (namedType_eq_iff hname hspells).2 hfirst]

/-- A node refers to the names that its references spell only if all of them are spaced: what any
other one leads to is not a name. -/
theorem isSpaced_of_collect (hnames : ∀ name ∈ names, IsTypeName name.toList)
    (h : List.Forall₂ (fun name reference => Spells name.toList reference.toList) names references)
    (hcollect : TypeNode.collect references = names.eraseDups) (hmem : reference ∈ references) :
    IsSpaced reference := by
  obtain ⟨i, hi, rfl⟩ := List.mem_iff_getElem.1 hmem
  have hlength : i < names.length := by rwa [h.length_eq]
  have hname : IsTypeName (names[i]).toList := hnames _ (List.getElem_mem hlength)
  have hspells : Spells (names[i]).toList (references[i]).toList := h.get hlength hi
  have hleads : namedType references[i] ∈ names := by
    rw [← List.mem_eraseDups, ← hcollect, collect_eq_eraseDups, List.mem_eraseDups, List.mem_filter]
    exact ⟨List.mem_map_of_mem hmem, decide_eq_true (namedType_ne_empty hname hspells)⟩
  exact (namedType_namedType_iff hname hspells).1 (namedType_of_isTypeName (hnames _ hleads))

end References

/-- **A reference leads to the name that it spells**, and what it leads to leads to itself, exactly
if the blanks inside of it are spaces. **A node refers to the names that its references spell**,
once each and in the order of their first mention, exactly if this holds of all its references. -/
theorem references_of_spellings (own : String) (sort : Config.TypeSort)
    (names references : List String) (hnames : ∀ name ∈ names, IsTypeName name.toList)
    (h : List.Forall₂ (fun name reference => Spells name.toList reference.toList)
      names references) :
    List.Forall₂ (fun name reference => (namedType reference = name ↔ IsSpaced reference) ∧
        (namedType (namedType reference) = namedType reference ↔ IsSpaced reference))
      names references ∧
    ((TypeNode.mention own sort references).references = names.eraseDups ↔
      ∀ reference ∈ references, IsSpaced reference) := by
  constructor
  · refine ((List.forall₂_and_left names references).2 ⟨hnames, h⟩).imp ?_
    intro name reference ⟨hname, hspells⟩
    exact ⟨namedType_eq_iff hname hspells, namedType_namedType_iff hname hspells⟩
  · constructor
    · exact fun hcollect reference => isSpaced_of_collect hnames h hcollect
    · intro hspaced
      have hkeep : names.filter (· ≠ "") = names := by
        refine List.filter_eq_self.2 fun name hname => decide_eq_true fun hempty => ?_
        exact (hnames name hname).nonempty (String.toList_eq_nil_iff.2 hempty)
      calc (TypeNode.mention own sort references).references
          = ((references.map namedType).filter (· ≠ "")).eraseDups :=
            collect_eq_eraseDups references
        _ = names.eraseDups := by rw [map_namedType hnames h hspaced, hkeep]

/-- A list of required users, spread out but spaced, is a reference to users like a plain one. -/
theorem references_of_spellings_users :
    namedType "\t[ [User!] ] !\n" = "User" ∧
    (TypeNode.mention "Feed" .object ["\t[ [User!] ] !\n", "User"]).references = ["User"] := by
  have hname : IsTypeName "User".toList := ⟨by decide, by simp [Text.isBlank], by simp⟩
  have hinner : Spells "User".toList "[ [User!] ]".toList :=
    .list (@Spells.spaced _ [' '] _ [' '] (by decide) (.list (.required .name)) (by decide))
  have hspells : Spells "User".toList "\t[ [User!] ] !\n".toList :=
    @Spells.spaced _ ['\t'] _ ['\n'] (by decide)
      (.required (@Spells.spaced _ [] _ [' '] (by decide) hinner (by decide))) (by decide)
  have hspaced : IsSpaced "\t[ [User!] ] !\n" := by decide
  obtain ⟨heach, hnode⟩ := references_of_spellings "Feed" .object ["User", "User"]
    ["\t[ [User!] ] !\n", "User"] (by simpa using hname) (.cons hspells (.cons .name .nil))
  constructor
  · exact ((List.forall₂_cons.1 heach).1.1).2 hspaced
  · exact hnode.2 (List.forall_mem_cons.2 ⟨hspaced, by decide⟩)

/-- Tabs inside of the brackets are kept, so such a list does not lead to the type that it names,
and not to the same type as a plain reference. -/
theorem namedType_keeps_tabs :
    IsTypeName "User".toList ∧ Spells "User".toList "[\tUser\t]".toList ∧
      namedType "[\tUser\t]" = "\tUser\t" ∧
      namedType (namedType "[\tUser\t]") ≠ namedType "[\tUser\t]" ∧
      (TypeNode.mention "Feed" .object ["[\tUser\t]", "User"]).references =
        ["\tUser\t", "User"] := by
  refine ⟨⟨by decide, by simp [Text.isBlank], by simp⟩, ?_, by decide, by decide, by decide⟩
  exact .list (@Spells.spaced _ ['\t'] _ ['\t'] (by decide) .name (by decide))

end Criteria
