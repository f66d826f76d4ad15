import Criteria.Proofs.Json.Lexemes

/-!
# Written values are read back

A value is written in one of two forms, the scanner splits the text into the lexemes of the value,
and the reader runs over them. The lexemes of a value hand the value to the innermost container that
is open, whatever is open and whatever comes behind them. This is what carries the induction: inside
of a container, the state of the reader is that container with the items or members read so far.

A container is refused if too many are open already. No text opens more of them than it has lexemes,
so a reader that allows for as many as the text has characters refuses none.

* `scans_compact`, `scans_prettyAt` — both forms have the lexemes of the value;
* `Reader.run_tokens` — the reader makes the value of its lexemes;
* `read?_compact`, `read?_pretty` — a value without doubles is read back from its text.
-/

namespace Criteria.Json

open Token

/-! ### The compact form -/

section

variable {rest : List Char}

theorem ends_compactItems (items : List Json) (hrest : Text.Ends continuesNumber rest) :
    Text.Ends continuesNumber ((compactItems items).toList ++ rest) := by
  cases items with
  | nil => exact hrest
  | cons item items =>
    rw [compactItems, String.append_assoc, String.toList_append]
    exact Text.ends_cons.2 rfl

theorem ends_compactMembers (members : Members) (hrest : Text.Ends continuesNumber rest) :
    Text.Ends continuesNumber ((compactMembers members).toList ++ rest) := by
  cases members with
  | nil => exact hrest
  | cons member members =>
    obtain ⟨key, value⟩ := member
    rw [compactMembers, String.append_assoc, String.append_assoc, String.append_assoc,
      String.toList_append]
    exact Text.ends_cons.2 rfl

mutual

/-- The compact form of a value has the lexemes of the value, if no number goes on behind it. -/
theorem scans_compact (value : Json) (hwhole : value.IsWhole) (rest : List Char)
    (hrest : Text.Ends continuesNumber rest) :
    Scans ((compact value).toList ++ rest) value.tokens rest := by
  match value with
  | .null => exact @Scans.lexeme 'n' ['u', 'l', 'l'] rest rest _ [] rfl rfl .none
  | .bool true => exact @Scans.lexeme 't' ['r', 'u', 'e'] rest rest _ [] rfl rfl .none
  | .bool false => exact @Scans.lexeme 'f' ['a', 'l', 's', 'e'] rest rest _ [] rfl rfl .none
  | .number found =>
    obtain ⟨i, rfl, hi⟩ := hwhole found .self
    exact scans_int hi hrest
  | .string s => exact scans_quoted s rest
  | .array [] => exact .mark rfl rfl (.mark rfl rfl .none)
  | .array (item :: items) =>
    obtain ⟨hitem, hitems⟩ := List.forall_mem_cons.1 (isWhole_array.1 hwhole)
    have hend : Text.Ends continuesNumber (']' :: rest) := Text.ends_cons.2 rfl
    have htext : (compact (.array (item :: items))).toList ++ rest =
        '[' :: ([] ++ ((compact item).toList ++
          ((compactItems items).toList ++ ([] ++ ']' :: rest)))) := by
      simp [compact, String.toList_append]
    rw [htext]
    apply scans_array (List.forall_mem_nil _) (List.forall_mem_nil _)
    · exact scans_compact item hitem _ (ends_compactItems items hend)
    · exact scans_compactItems items hitems _ hend
  | .object [] => exact .mark rfl rfl (.mark rfl rfl .none)
  | .object ((key, value) :: members) =>
    obtain ⟨hvalue, hmembers⟩ := List.forall_mem_cons.1 (isWhole_object.1 hwhole)
    have hend : Text.Ends continuesNumber ('\x7d' :: rest) := Text.ends_cons.2 rfl
    have htext : (compact (.object ((key, value) :: members))).toList ++ rest =
        '\x7b' :: ([] ++ (((quoted key).toList ++ ':' :: (compact value).toList) ++
          ((compactMembers members).toList ++ ([] ++ '\x7d' :: rest)))) := by
      simp [compact, String.toList_append]
    rw [htext]
    apply scans_object (List.forall_mem_nil _) (List.forall_mem_nil _)
    · rw [List.append_assoc, List.cons_append]
      apply @scans_member _ _ [] _ _ (List.forall_mem_nil _)
      exact scans_compact value hvalue _ (ends_compactMembers members hend)
    · exact scans_compactMembers members hmembers _ hend
termination_by sizeOf value

theorem scans_compactItems (items : List Json) (hitems : ∀ item ∈ items, item.IsWhole)
    (rest : List Char) (hrest : Text.Ends continuesNumber rest) :
    Scans ((compactItems items).toList ++ rest) (tokensOfItems items) rest := by
  match items with
  | [] => exact .none
  | item :: items =>
    obtain ⟨hitem, hitems⟩ := List.forall_mem_cons.1 hitems
    have htext : (compactItems (item :: items)).toList ++ rest =
        ',' :: ([] ++ ((compact item).toList ++ ((compactItems items).toList ++ rest))) := by
      simp [compactItems, String.toList_append]
    rw [htext]
    apply scans_furtherItem (List.forall_mem_nil _)
    · exact scans_compact item hitem _ (ends_compactItems items hrest)
    · exact scans_compactItems items hitems rest hrest
termination_by sizeOf items

theorem scans_compactMembers (members : Members) (hmembers : ∀ member ∈ members, member.2.IsWhole)
    (rest : List Char) (hrest : Text.Ends continuesNumber rest) :
    Scans ((compactMembers members).toList ++ rest) (tokensOfMembers members) rest := by
  match members with
  | [] => exact .none
  | (key, value) :: members =>
    obtain ⟨hvalue, hmembers⟩ := List.forall_mem_cons.1 hmembers
    have htext : (compactMembers ((key, value) :: members)).toList ++ rest =
        ',' :: ([] ++ (((quoted key).toList ++ ':' :: (compact value).toList) ++
          ((compactMembers members).toList ++ rest))) := by
      simp [compactMembers, String.toList_append]
    rw [htext]
    apply scans_furtherMember (List.forall_mem_nil _)
    · rw [List.append_assoc, List.cons_append]
      apply @scans_member _ _ [] _ _ (List.forall_mem_nil _)
      exact scans_compact value hvalue _ (ends_compactMembers members hrest)
    · exact scans_compactMembers members hmembers rest hrest
termination_by sizeOf members

end

/-! ### The form with lines -/

theorem isBlank_newLine (level : Nat) : ∀ c ∈ (newLine level).toList, isBlank c = true := by
  rw [newLine, String.toList_ofList]
  refine List.forall_mem_cons.2 ⟨rfl, fun c hc => ?_⟩
  rw [List.eq_of_mem_replicate hc]
  rfl

/-- A number does not go on behind a line break. -/
theorem ends_newLine (level : Nat) (rest : List Char) :
    Text.Ends continuesNumber ((newLine level).toList ++ rest) := by
  rw [newLine, String.toList_ofList]
  exact Text.ends_cons.2 rfl

theorem ends_prettyItems (level : Nat) (items : List Json)
    (hrest : Text.Ends continuesNumber rest) :
    Text.Ends continuesNumber ((prettyItems level items).toList ++ rest) := by
  cases items with
  | nil => exact hrest
  | cons item items =>
    rw [prettyItems, String.append_assoc, String.append_assoc, String.toList_append]
    exact Text.ends_cons.2 rfl

theorem ends_prettyMembers (level : Nat) (members : Members)
    (hrest : Text.Ends continuesNumber rest) :
    Text.Ends continuesNumber ((prettyMembers level members).toList ++ rest) := by
  cases members with
  | nil => exact hrest
  | cons member members =>
    obtain ⟨key, value⟩ := member
    simp only [prettyMembers, String.append_assoc]
    rw [String.toList_append]
    exact Text.ends_cons.2 rfl

mutual

/-- So does the form with lines. -/
theorem scans_prettyAt (level : Nat) (value : Json) (hwhole : value.IsWhole) (rest : List Char)
    (hrest : Text.Ends continuesNumber rest) :
    Scans ((prettyAt level value).toList ++ rest) value.tokens rest := by
  match value with
  | .null => exact scans_compact .null hwhole rest hrest
  | .bool b => exact scans_compact (.bool b) hwhole rest hrest
  | .number found => exact scans_compact (.number found) hwhole rest hrest
  | .string s => exact scans_compact (.string s) hwhole rest hrest
  | .array [] => exact scans_compact (.array []) hwhole rest hrest
  | .array (item :: items) =>
    obtain ⟨hitem, hitems⟩ := List.forall_mem_cons.1 (isWhole_array.1 hwhole)
    have hend := ends_newLine level (']' :: rest)
    have htext : (prettyAt level (.array (item :: items))).toList ++ rest =
        '[' :: ((newLine (level + 1)).toList ++ ((prettyAt (level + 1) item).toList ++
          ((prettyItems (level + 1) items).toList ++
            ((newLine level).toList ++ ']' :: rest)))) := by
      simp [prettyAt, String.toList_append]
    rw [htext]
    apply scans_array (isBlank_newLine (level + 1)) (isBlank_newLine level)
    · exact scans_prettyAt (level + 1) item hitem _ (ends_prettyItems (level + 1) items hend)
    · exact scans_prettyItems (level + 1) items hitems _ hend
  | .object [] => exact scans_compact (.object []) hwhole rest hrest
  | .object ((key, value) :: members) =>
    obtain ⟨hvalue, hmembers⟩ := List.forall_mem_cons.1 (isWhole_object.1 hwhole)
    have hend := ends_newLine level ('\x7d' :: rest)
    have htext : (prettyAt level (.object ((key, value) :: members))).toList ++ rest =
        '\x7b' :: ((newLine (level + 1)).toList ++
          (((quoted key).toList ++ ':' :: ' ' :: (prettyAt (level + 1) value).toList) ++
          ((prettyMembers (level + 1) members).toList ++
            ((newLine level).toList ++ '\x7d' :: rest)))) := by
      simp [prettyAt, String.toList_append]
    rw [htext]
    apply scans_object (isBlank_newLine (level + 1)) (isBlank_newLine level)
    · rw [List.append_assoc, List.cons_append, List.cons_append]
      apply @scans_member _ _ [' '] _ _ (List.forall_mem_singleton.2 rfl)
      exact scans_prettyAt (level + 1) value hvalue _
        (ends_prettyMembers (level + 1) members hend)
    · exact scans_prettyMembers (level + 1) members hmembers _ hend
termination_by sizeOf value

theorem scans_prettyItems (level : Nat) (items : List Json)
    (hitems : ∀ item ∈ items, item.IsWhole) (rest : List Char)
    (hrest : Text.Ends continuesNumber rest) :
    Scans ((prettyItems level items).toList ++ rest) (tokensOfItems items) rest := by
  match items with
  | [] => exact .none
  | item :: items =>
    obtain ⟨hitem, hitems⟩ := List.forall_mem_cons.1 hitems
    have htext : (prettyItems level (item :: items)).toList ++ rest =
        ',' :: ((newLine level).toList ++ ((prettyAt level item).toList ++
          ((prettyItems level items).toList ++ rest))) := by
      simp [prettyItems, String.toList_append]
    rw [htext]
    apply scans_furtherItem (isBlank_newLine level)
    · exact scans_prettyAt level item hitem _ (ends_prettyItems level items hrest)
    · exact scans_prettyItems level items hitems rest hrest
termination_by sizeOf items

theorem scans_prettyMembers (level : Nat) (members : Members)
    (hmembers : ∀ member ∈ members, member.2.IsWhole) (rest : List Char)
    (hrest : Text.Ends continuesNumber rest) :
    Scans ((prettyMembers level members).toList ++ rest) (tokensOfMembers members) rest := by
  match members with
  | [] => exact .none
  | (key, value) :: members =>
    obtain ⟨hvalue, hmembers⟩ := List.forall_mem_cons.1 hmembers
    have htext : (prettyMembers level ((key, value) :: members)).toList ++ rest =
        ',' :: ((newLine level).toList ++
          (((quoted key).toList ++ ':' :: ' ' :: (prettyAt level value).toList) ++
          ((prettyMembers level members).toList ++ rest))) := by
      simp [prettyMembers, String.toList_append]
    rw [htext]
    apply scans_furtherMember (isBlank_newLine level)
    · rw [List.append_assoc, List.cons_append, List.cons_append]
      apply @scans_member _ _ [' '] _ _ (List.forall_mem_singleton.2 rfl)
      exact scans_prettyAt level value hvalue _ (ends_prettyMembers level members hrest)
    · exact scans_prettyMembers level members hmembers rest hrest
termination_by sizeOf members

end

end

/-! ### Running the reader -/

namespace Reader

variable {options : ReaderOptions} {state next : State} {token : Token}

theorem run_cons (h : step options state token = some next) (rest : List Token) :
    run options state (token :: rest) = run options next rest := by
  rw [run, h]

/-- No value begins with the end of a list. -/
theorem exists_tokens (value : Json) :
    ∃ token rest, value.tokens = token :: rest ∧ token ≠ .endArray := by
  match value with
  | .null | .bool _ | .number _ | .string _ => exact ⟨_, _, rfl, nofun⟩
  | .array [] | .array (_ :: _) | .object [] | .object (_ :: _) => exact ⟨_, _, rfl, nofun⟩

/-- A list that was opened waits for its first item as for any other one. -/
theorem run_firstItem (item : Json) (frames : List Frame) (rest : List Token) :
    run options ⟨frames, .firstItem⟩ (item.tokens ++ rest) =
      run options ⟨.array [] :: frames, .value⟩ (item.tokens ++ rest) := by
  obtain ⟨token, others, htokens, htoken⟩ := exists_tokens item
  have hstep : step options ⟨frames, .firstItem⟩ token =
      step options ⟨.array [] :: frames, .value⟩ token := if_neg htoken
  rw [htokens, List.cons_append, run, run, hstep]

/-- A list that is closed has its items in the order in which they were read. -/
theorem step_endArray (items : List Json) (frames : List Frame) :
    step options ⟨frames, .afterItem items.reverse⟩ .endArray =
      some (deliver (.array items) frames) := by
  show some (deliver (.array items.reverse.reverse) frames) = _
  rw [List.reverse_reverse]

/-- So has an object its members, and a reader that keeps repeated names drops none of them. -/
theorem step_endObject (hkeep : options.repeats = .keep) (members : Members)
    (frames : List Frame) :
    step options ⟨frames, .afterMember (some members.reverse)⟩ .endObject =
      some (deliver (.object members) frames) := by
  show (close? options (some members.reverse)).map _ = _
  rw [close?, hkeep, List.reverse_reverse]
  rfl

/-- A container can be opened if there is room for its lexemes. -/
theorem length_lt_of_room {frames : List Frame} {value : Json}
    (hroom : frames.length + value.tokens.length ≤ options.maxDepth) :
    frames.length < options.maxDepth := by
  obtain ⟨token, rest, htokens, -⟩ := exists_tokens value
  rw [htokens, List.length_cons] at hroom
  omega

mutual

/-- **The lexemes of a value deliver the value** to the innermost open container, if there is room
for them. -/
theorem run_tokens (hkeep : options.repeats = .keep) (value : Json) (frames : List Frame)
    (hroom : frames.length + value.tokens.length ≤ options.maxDepth) (rest : List Token) :
    run options ⟨frames, .value⟩ (value.tokens ++ rest) =
      run options (deliver value frames) rest := by
  have hopen : frames.length < options.maxDepth := length_lt_of_room hroom
  have hbracket : step options ⟨frames, .value⟩ .beginArray = some ⟨frames, .firstItem⟩ :=
    if_pos hopen
  have hbrace : step options ⟨frames, .value⟩ .beginObject = some ⟨frames, .firstKey⟩ :=
    if_pos hopen
  match value with
  | .null | .bool _ | .number _ | .string _ => rfl
  | .array [] => exact (run_cons hbracket _).trans (run_cons rfl rest)
  | .array (item :: items) =>
    have hroom : (Frame.array [] :: frames).length + item.tokens.length ≤ options.maxDepth ∧
        frames.length + (tokensOfItems items).length ≤ options.maxDepth := by
      simp only [tokens, List.length_cons, List.length_append] at hroom ⊢
      omega
    calc run options ⟨frames, .value⟩ ((Json.array (item :: items)).tokens ++ rest)
        = run options ⟨frames, .firstItem⟩
            (item.tokens ++ (tokensOfItems items ++ [Token.endArray]) ++ rest) :=
          run_cons hbracket _
      _ = run options ⟨.array [] :: frames, .value⟩
            (item.tokens ++ (tokensOfItems items ++ .endArray :: rest)) := by
          rw [List.append_assoc, List.append_assoc, run_firstItem, List.singleton_append]
      _ = run options ⟨frames, .afterItem [item]⟩ (tokensOfItems items ++ .endArray :: rest) :=
          run_tokens hkeep item (.array [] :: frames) hroom.1 _
      _ = run options ⟨frames, .afterItem (items.reverse ++ [item])⟩ (.endArray :: rest) :=
          run_tokensOfItems hkeep items [item] frames hroom.2 _
      _ = run options (deliver (.array (item :: items)) frames) rest := by
          rw [← List.reverse_cons]
          exact run_cons (step_endArray (item :: items) frames) rest
  | .object [] => exact (run_cons hbrace _).trans (run_cons rfl rest)
  | .object ((key, value) :: members) =>
    have hroom : (Frame.object (some []) key :: frames).length + value.tokens.length ≤
          options.maxDepth ∧
        frames.length + (tokensOfMembers members).length ≤ options.maxDepth := by
      simp only [tokens, List.length_cons, List.length_append] at hroom ⊢
      omega
    calc run options ⟨frames, .value⟩ ((Json.object ((key, value) :: members)).tokens ++ rest)
        = run options ⟨.object (some []) key :: frames, .value⟩
            (value.tokens ++ (tokensOfMembers members ++ [Token.endObject]) ++ rest) :=
          (run_cons hbrace _).trans ((run_cons rfl _).trans (run_cons rfl _))
      _ = run options ⟨frames, .afterMember (some [(key, value)])⟩
            (tokensOfMembers members ++ .endObject :: rest) := by
          rw [List.append_assoc, List.append_assoc, List.singleton_append]
          exact run_tokens hkeep value (.object (some []) key :: frames) hroom.1 _
      _ = run options ⟨frames, .afterMember (some (members.reverse ++ [(key, value)]))⟩
            (.endObject :: rest) := run_tokensOfMembers hkeep members _ frames hroom.2 _
      _ = run options (deliver (.object ((key, value) :: members)) frames) rest := by
          rw [← List.reverse_cons]
          exact run_cons (step_endObject hkeep ((key, value) :: members) frames) rest
termination_by sizeOf value

theorem run_tokensOfItems (hkeep : options.repeats = .keep) (items read : List Json)
    (frames : List Frame) (hroom : frames.length + (tokensOfItems items).length ≤ options.maxDepth)
    (rest : List Token) :
    run options ⟨frames, .afterItem read⟩ (tokensOfItems items ++ rest) =
      run options ⟨frames, .afterItem (items.reverse ++ read)⟩ rest := by
  match items with
  | [] => rfl
  | item :: items =>
    have hroom : (Frame.array read :: frames).length + item.tokens.length ≤ options.maxDepth ∧
        frames.length + (tokensOfItems items).length ≤ options.maxDepth := by
      simp only [tokensOfItems, List.length_cons, List.length_append] at hroom ⊢
      omega
    calc run options ⟨frames, .afterItem read⟩ (tokensOfItems (item :: items) ++ rest)
        = run options ⟨.array read :: frames, .value⟩
            (item.tokens ++ tokensOfItems items ++ rest) := run_cons rfl _
      _ = run options ⟨frames, .afterItem (item :: read)⟩ (tokensOfItems items ++ rest) := by
          rw [List.append_assoc]
          exact run_tokens hkeep item (.array read :: frames) hroom.1 _
      _ = run options ⟨frames, .afterItem (items.reverse ++ item :: read)⟩ rest :=
          run_tokensOfItems hkeep items (item :: read) frames hroom.2 rest
      _ = run options ⟨frames, .afterItem ((item :: items).reverse ++ read)⟩ rest := by
          rw [List.reverse_cons, List.append_assoc, List.singleton_append]
termination_by sizeOf items

theorem run_tokensOfMembers (hkeep : options.repeats = .keep) (members read : Members)
    (frames : List Frame)
    (hroom : frames.length + (tokensOfMembers members).length ≤ options.maxDepth)
    (rest : List Token) :
    run options ⟨frames, .afterMember (some read)⟩ (tokensOfMembers members ++ rest) =
      run options ⟨frames, .afterMember (some (members.reverse ++ read))⟩ rest := by
  match members with
  | [] => rfl
  | (key, value) :: members =>
    have hroom : (Frame.object (some read) key :: frames).length + value.tokens.length ≤
          options.maxDepth ∧
        frames.length + (tokensOfMembers members).length ≤ options.maxDepth := by
      simp only [tokensOfMembers, List.length_cons, List.length_append] at hroom ⊢
      omega
    calc run options ⟨frames, .afterMember (some read)⟩
          (tokensOfMembers ((key, value) :: members) ++ rest)
        = run options ⟨.object (some read) key :: frames, .value⟩
            (value.tokens ++ tokensOfMembers members ++ rest) :=
          (run_cons rfl _).trans ((run_cons rfl _).trans (run_cons rfl _))
      _ = run options ⟨frames, .afterMember (some ((key, value) :: read))⟩
            (tokensOfMembers members ++ rest) := by
          rw [List.append_assoc]
          exact run_tokens hkeep value (.object (some read) key :: frames) hroom.1 _
      _ = run options ⟨frames, .afterMember (some (members.reverse ++ (key, value) :: read))⟩
            rest := run_tokensOfMembers hkeep members _ frames hroom.2 rest
      _ = run options ⟨frames, .afterMember (some (((key, value) :: members).reverse ++ read))⟩
            rest := by
          rw [List.reverse_cons, List.append_assoc, List.singleton_append]
termination_by sizeOf members

end

end Reader

/-! ### Texts -/

section

variable {options : ReaderOptions} {text : String} {value : Json}

/-- A text with the lexemes of a value is read as the value. -/
theorem read?_of_scans (hkeep : options.repeats = .keep) (hdepth : text.length ≤ options.maxDepth)
    (h : Scans text.toList value.tokens []) : read? options text = some value := by
  -- there are no more containers than lexemes, and no more lexemes than characters
  have hlength := h.length_le
  rw [String.length_toList] at hlength
  have hroom : ([] : List Reader.Frame).length + value.tokens.length ≤ options.maxDepth := by
    simp only [List.length_nil] at hlength ⊢
    omega
  have hrun : Reader.run options ⟨[], .value⟩ value.tokens = some ⟨[], .done value⟩ := by
    have hdeliver := Reader.run_tokens hkeep value [] hroom []
    rwa [List.append_nil] at hdeliver
  simp [read?, scan_of_scans h, hrun]

/-- **A value without doubles is read back from its compact form.** -/
theorem read?_compact (hkeep : options.repeats = .keep)
    (hdepth : value.compact.length ≤ options.maxDepth) (hwhole : value.IsWhole) :
    read? options value.compact = some value := by
  have hscans := scans_compact value hwhole [] (Text.ends_nil _)
  rw [List.append_nil] at hscans
  exact read?_of_scans hkeep hdepth hscans

/-- **A value without doubles is read back from its form with lines.** -/
theorem read?_pretty (hkeep : options.repeats = .keep)
    (hdepth : value.pretty.length ≤ options.maxDepth) (hwhole : value.IsWhole) :
    read? options value.pretty = some value := by
  have hscans := scans_prettyAt 0 value hwhole [] (Text.ends_nil _)
  rw [List.append_nil] at hscans
  exact read?_of_scans hkeep hdepth hscans

end

end Criteria.Json
