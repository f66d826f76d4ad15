import Criteria.Kind
import Criteria.Proofs.Text.Span

/-!
# Written kinds

A kind is read with blanks around it, built-in names in any letter case and under several words, and
an enum behind `enum:` with blanks around its name. The label of a kind is one of its written forms.
Reading a label gives the kind back, except for enums that cannot be declared: an enum whose name is
empty, belongs to a built-in kind, or has blanks around it. Such names do not arise from reading, so
that a kind that was read and written is read as the same kind.

Whatever stands behind `enum:` is read as the name of an enum or refused, so the label of an enum is
never taken for a built-in kind, even if its name looks like one.

* `Kind.IsMisnamed` — the enums that cannot be declared;
* `Kind.read_label_enum` — what is read behind `enum:` is the name without the blanks around it;
* `Kind.not_isMisnamed_of_read` — no misnamed enum is read;
* `Kind.labels_read_back` — which labels are read back, and what the others are read as.
-/

namespace Criteria.Kind

variable {kind : Kind} {text name : String}

/-- An enum whose name is empty, belongs to a built-in kind, or has a blank at its beginning or
end. -/
def IsMisnamed : Kind → Prop
  | .enum name => name = "" ∨ isReserved name = true ∨ Text.IsPadded name
  | _ => False

theorem isMisnamed_enum :
    (Kind.enum name).IsMisnamed ↔ name = "" ∨ isReserved name = true ∨ Text.IsPadded name := Iff.rfl

/-- A name without blanks around it is misnamed only if it is empty or reserved. -/
theorem isMisnamed_enum_trim :
    (Kind.enum (Text.trim name)).IsMisnamed ↔
      Text.trim name = "" ∨ isReserved (Text.trim name) = true := by
  rw [isMisnamed_enum, or_iff_left (Text.not_isPadded_trim name)]

/-! ### Enums -/

theorem readEnum_eq_ok_iff {other : Kind} :
    readEnum text name = .ok other ↔
      (name ≠ "" ∧ isReserved name = false) ∧ other = .enum name := by
  unfold readEnum
  split
  · next hempty => simp [hempty]
  · next hname =>
    split
    · next hreserved => simp [hreserved]
    · next hfree => simp [hname, hfree, eq_comm]

/-- **Behind `enum:` there is nothing but the name**, and blanks around it. -/
theorem read_label_enum (name : String) :
    read (Kind.enum name).label = readEnum (Kind.enum name).label (Text.trim name) := by
  have hfirst : Text.Ends Text.isBlank ['e', 'n', 'u', 'm', ':'] := Text.ends_cons.2 rfl
  have hlast : Text.Ends Text.isBlank ['e', 'n', 'u', 'm', ':'].reverse := Text.ends_cons.2 rfl
  obtain ⟨kept, hstrip, hkept⟩ := Text.exists_strip_behind (by simp) hfirst hlast name.toList
  have htrim : (Text.trim (Kind.enum name).label).toList =
      'e' :: 'n' :: 'u' :: 'm' :: ':' :: kept := by
    rw [Text.trim, String.toList_ofList, label, String.toList_append]
    exact hstrip
  have hname : Text.trim (String.ofList kept) = Text.trim name := by
    rw [Text.trim, Text.trim, String.toList_ofList, hkept]
  rw [read, htrim]
  simp only
  rw [hname]

/-- The label of an enum is read as the enum with the trimmed name, unless this one is misnamed. -/
theorem read_label_enum_eq_ok_iff {other : Kind} :
    read (Kind.enum name).label = .ok other ↔
      ¬ (Kind.enum (Text.trim name)).IsMisnamed ∧ other = .enum (Text.trim name) := by
  rw [read_label_enum, readEnum_eq_ok_iff, isMisnamed_enum_trim, not_or, Bool.not_eq_true]

/-! ### Built-in kinds -/

theorem enum_not_mem_builtin (name : String) : Kind.enum name ∉ builtin := by
  simp [builtin]

/-- Only built-in kinds have words of their own. -/
theorem mem_builtin_of_ofWord? {word : String} (h : ofWord? word = some kind) : kind ∈ builtin := by
  unfold ofWord? at h
  split at h <;> cases h <;> decide

theorem read_label_builtin (hkind : kind ∈ builtin) : read kind.label = .ok kind := by
  revert kind
  decide

theorem not_isMisnamed_builtin (hkind : kind ∈ builtin) : ¬ kind.IsMisnamed := by
  cases kind with
  | enum name => exact absurd hkind (enum_not_mem_builtin name)
  | _ => exact not_false

/-! ### What is read -/

/-- No misnamed enum is read. -/
theorem not_isMisnamed_of_read (h : read text = .ok kind) : ¬ kind.IsMisnamed := by
  unfold read at h
  split at h
  · obtain ⟨⟨hname, hfree⟩, rfl⟩ := readEnum_eq_ok_iff.1 h
    rw [isMisnamed_enum_trim, hfree]
    simpa using hname
  · split at h
    · next hword =>
      cases h
      exact not_isMisnamed_builtin (mem_builtin_of_ofWord? hword)
    · cases h

/-- The label of a kind is read as this kind, unless the kind is misnamed. -/
theorem read_label_iff : read kind.label = .ok kind ↔ ¬ kind.IsMisnamed := by
  cases kind with
  | enum name =>
    rw [read_label_enum_eq_ok_iff, Kind.enum.injEq]
    constructor
    · rintro ⟨hnamed, htrim⟩
      rwa [← htrim] at hnamed
    · intro hnamed
      have htrim : Text.trim name = name :=
        Text.trim_eq_self_iff.2 fun hpadded => hnamed (.inr (.inr hpadded))
      exact ⟨htrim.symm ▸ hnamed, htrim.symm⟩
  | _ => exact iff_of_true (read_label_builtin (by decide)) not_false

/-- **Which labels are read back.** If a text is read as a kind, then so is the label of the kind.
The label of a kind is read as this kind exactly if the kind is not misnamed. The label of a
misnamed enum is read as the enum with the trimmed name if this one is not misnamed, and refused
otherwise. No label of an enum is read as a built-in kind. -/
theorem labels_read_back :
    (∀ text kind, read text = .ok kind → read kind.label = .ok kind) ∧
    (∀ kind, read kind.label = .ok kind ↔ ¬ kind.IsMisnamed) ∧
    (∀ name, (Kind.enum name).IsMisnamed →
      ¬ (Kind.enum (Text.trim name)).IsMisnamed ∧
          read (Kind.enum name).label = .ok (.enum (Text.trim name)) ∨
        (Kind.enum (Text.trim name)).IsMisnamed ∧
          ∃ error, read (Kind.enum name).label = .error error) ∧
    ∀ name, ∀ other ∈ builtin, read (Kind.enum name).label ≠ .ok other := by
  refine ⟨fun text kind hread => read_label_iff.2 (not_isMisnamed_of_read hread),
    fun kind => read_label_iff, fun name _ => ?_, fun name other hother hread => ?_⟩
  · cases hread : read (Kind.enum name).label with
    | ok other =>
      obtain ⟨hnamed, rfl⟩ := read_label_enum_eq_ok_iff.1 hread
      exact .inl ⟨hnamed, rfl⟩
    | error error =>
      refine .inr ⟨?_, error, rfl⟩
      by_contra hnamed
      rw [read_label_enum_eq_ok_iff.2 ⟨hnamed, rfl⟩] at hread
      cases hread
  · obtain ⟨-, rfl⟩ := read_label_enum_eq_ok_iff.1 hread
    exact enum_not_mem_builtin _ hother

/-- A declaration with blanks at every place, an enum that is read under its trimmed name, one that
is refused because its trimmed name is reserved, and one that is called like a built-in kind. -/
theorem labels_read_back_padded :
    read " enum: Status\t" = .ok (.enum "Status") ∧
      read (Kind.enum "Status").label = .ok (.enum "Status") ∧
      (Kind.enum "Status ").IsMisnamed ∧
      read (Kind.enum "Status ").label = .ok (.enum "Status") ∧
      (Kind.enum " Int").IsMisnamed ∧
      (∃ error, read (Kind.enum " Int").label = .error error) ∧
      Kind.date ∈ builtin ∧
      read (Kind.enum "date").label ≠ .ok .date := by
  obtain ⟨hback, -, hmisnamed, hnever⟩ := labels_read_back
  have hread : read " enum: Status\t" = .ok (.enum "Status") := by decide
  have hstatus : (Kind.enum "Status ").IsMisnamed := .inr (.inr (.inr ⟨' ', rfl, rfl⟩))
  have hint : (Kind.enum " Int").IsMisnamed := .inr (.inr (.inl ⟨' ', rfl, rfl⟩))
  have hdate : Kind.date ∈ builtin := by decide
  refine ⟨hread, hback _ _ hread, hstatus, ?_, hint, ?_, hdate, hnever "date" .date hdate⟩
  · rcases hmisnamed "Status " hstatus with ⟨-, htrimmed⟩ | ⟨hname, -⟩
    · exact htrimmed
    · exact absurd (isMisnamed_enum_trim.1 hname) (by decide)
  · rcases hmisnamed " Int" hint with ⟨hnamed, -⟩ | ⟨-, hrefused⟩
    · exact absurd (isMisnamed_enum_trim.2 (.inr (by decide))) hnamed
    · exact hrefused

end Criteria.Kind
