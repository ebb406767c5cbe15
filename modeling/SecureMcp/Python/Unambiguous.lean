import SecureMcp.Library.Delimited
import SecureMcp.Python.Extensional
import SecureMcp.Python.Numerals

/-! Canonical text is unambiguous: two values print alike exactly when they are one value up to the key
order of their objects. So what is hashed, signed or cached as canonical text is the value itself.
-/

namespace SecureMcp

namespace CanonicalJson

open Delimited Numerals

-----------------------------------------------------------------------------------------
-- Strings
-----------------------------------------------------------------------------------------

/-- The characters with an escape of two characters, behind the second one. -/
def shortEscapes : List (Char × Char) :=
  [('"', '"'), ('\\', '\\'), ('n', '\n'), ('r', '\r'), ('t', '\t'), ('b', '\x08'), ('f', '\x0c')]

/-- How one character of a string is printed. -/
inductive Escapes (char : Char) : List Char → Prop
  | plain (noQuote : char ≠ '"') (noBackslash : char ≠ '\\') : Escapes char [char]
  | short {mark : Char} (listed : (mark, char) ∈ shortEscapes) : Escapes char ['\\', mark]
  | unicode (control : char.toNat < 32) : Escapes char ('\\' :: 'u' :: hex4 char.toNat)

theorem escapes_escapeChar (char : Char) : Escapes char (escapeChar char) := by
  unfold escapeChar
  split_ifs with quote backslash newline carriage tab backspace feed control
  · subst quote
    exact .short (by decide)
  · subst backslash
    exact .short (by decide)
  · subst newline
    exact .short (by decide)
  · subst carriage
    exact .short (by decide)
  · subst tab
    exact .short (by decide)
  · subst backspace
    exact .short (by decide)
  · subst feed
    exact .short (by decide)
  · exact .unicode (Char.lt_def.mp control)
  · exact .plain quote backslash

theorem shortEscapes_unique {mark one other : Char} (first : (mark, one) ∈ shortEscapes)
    (second : (mark, other) ∈ shortEscapes)
    : one = other := by
  have unique : ∀ left ∈ shortEscapes, ∀ right ∈ shortEscapes, left.1 = right.1 → left = right := by
    decide
  exact congrArg Prod.snd (unique _ first _ second rfl)

theorem ne_of_shortEscape {mark char : Char} (listed : (mark, char) ∈ shortEscapes)
    : mark ≠ 'u' := by
  have each : ∀ entry ∈ shortEscapes, entry.1 ≠ 'u' := by decide
  exact each _ listed

theorem hex4_unique {one other : Char} (first : one.toNat < 32) (second : other.toNat < 32)
    (same : hex4 one.toNat = hex4 other.toNat)
    : one = other := by
  have unique : ∀ left < 32, ∀ right < 32, hex4 left = hex4 right → left = right := by decide
  exact Char.toNat_inj.mp (unique _ first _ second same)

/-- An escaped character is read back from what it begins, by the kinds of both escapes. -/
theorem escapeChar_unique (one other : Char) (left right : List Char)
    (same : escapeChar one ++ left = escapeChar other ++ right)
    : one = other ∧ left = right := by
  have first := escapes_escapeChar one
  have second := escapes_escapeChar other
  generalize escapeChar one = text at first same
  generalize escapeChar other = text' at second same
  cases first with
  | plain noQuote noBackslash =>
      cases second with
      | plain _ _ => exact List.cons.inj same
      | short _ | unicode _ => exact (noBackslash (List.cons.inj same).1).elim
  | short listed =>
      cases second with
      | plain _ noBackslash => exact (noBackslash (List.cons.inj same).1.symm).elim
      | short listed' =>
          obtain ⟨mark, rest⟩ := List.cons.inj (List.cons.inj same).2
          subst mark
          exact ⟨shortEscapes_unique listed listed', rest⟩
      | unicode _ =>
          exact (ne_of_shortEscape listed (List.cons.inj (List.cons.inj same).2).1).elim
  | unicode control =>
      cases second with
      | plain _ noBackslash => exact (noBackslash (List.cons.inj same).1.symm).elim
      | short listed' =>
          exact (ne_of_shortEscape listed' (List.cons.inj (List.cons.inj same).2).1.symm).elim
      | unicode control' =>
          have digits := (List.cons.inj (List.cons.inj same).2).2
          obtain ⟨hex, rest⟩ := List.append_inj digits rfl
          exact ⟨hex4_unique control control' hex, rest⟩

/-- No escape begins with the closing quote. -/
theorem escapeChar_opens (char : Char) (left right : List Char)
    : escapeChar char ++ left ≠ '"' :: right := by
  intro same
  have kind := escapes_escapeChar char
  generalize escapeChar char = text at kind same
  cases kind with
  | plain noQuote _ => exact noQuote (List.cons.inj same).1
  | short _ | unicode _ => exact absurd (List.cons.inj same).1 (by decide)

/-- A quoted string is read back from what it begins. -/
theorem quoted_unique {one other : String} {left right : List Char}
    (same : quoted one ++ left = quoted other ++ right)
    : one = other ∧ left = right := by
  simp only [quoted, List.cons_append, List.append_assoc, List.cons.injEq, true_and,
    List.nil_append] at same
  obtain ⟨letters, rest⟩ := words_unique escapeChar_unique escapeChar_opens same
  exact ⟨String.toList_injective letters, rest⟩

-----------------------------------------------------------------------------------------
-- What a text begins with and ends at
-----------------------------------------------------------------------------------------

/-- What may come after a value: nothing, a comma or a closing bracket. -/
def Ends (rest : List Char) : Prop :=
  ∀ char later, rest = char :: later → char ∈ [',', ']', '\x7d']

theorem ends_cons {char : Char} (closing : char ∈ [',', ']', '\x7d']) (rest : List Char)
    : Ends (char :: rest) := by
  intro first later same
  exact (List.cons.inj same).1 ▸ closing

/-- The first character of a value that is no number. -/
def lead : Json → Option Char
  | .null => some 'n'
  | .bool true => some 't'
  | .bool false => some 'f'
  | .int _ | .float _ => none
  | .str _ => some '"'
  | .arr _ => some '['
  | .obj _ => some '\x7b'

theorem inNumber_int {value : Int} {char : Char} (member : char ∈ (toString value).toList)
    : InNumber char := by
  rcases int_of_mem member with sign | digit
  · exact .inr (by simp [sign])
  · exact .inl digit

/-- The characters of a number are none of those that other values begin with or end at. -/
theorem ne_of_inNumber {char other : Char} (number : InNumber char) (mark : other.isDigit = false)
    (unlisted : other ∉ ['-', '+', '.', 'e'])
    : char ≠ other := by
  rintro rfl
  rcases number with digit | listed
  · rw [mark] at digit
    cases digit
  · exact unlisted listed

/-- A text begins with its value's first character, or with a number's. -/
theorem begins_of_chars {value : Json} {text : List Char} (printed : chars value = .ok text)
    : ∃ first rest,
        text = first :: rest ∧ (lead value = some first ∨ lead value = none ∧ InNumber first) := by
  cases value with
  | null =>
      cases printed
      exact ⟨_, _, rfl, .inl rfl⟩
  | bool value =>
      cases value with
      | true | false =>
          cases printed
          exact ⟨_, _, rfl, .inl rfl⟩
  | int value =>
      cases printed
      cases digits : (toString value).toList with
      | nil => exact (int_ne_nil value digits).elim
      | cons first rest =>
          exact ⟨first, rest, rfl, .inr ⟨rfl,
            inNumber_int (by rw [digits]; exact List.mem_cons_self)⟩⟩
  | float value =>
      cases value with
      | infinity _ | nan => cases printed
      | finite value =>
          cases printed
          cases digits : value.repr with
          | nil =>
              obtain ⟨_, member, _⟩ := value.exists_mark
              rw [digits] at member
              cases member
          | cons first rest =>
              exact ⟨first, rest, rfl, .inr ⟨rfl,
                value.inNumber_of_mem (by rw [digits]; exact List.mem_cons_self)⟩⟩
  | str text =>
      cases printed
      exact ⟨_, _, rfl, .inl rfl⟩
  | arr items =>
      obtain ⟨texts, _, rfl⟩ := chars_arr.mp printed
      exact ⟨_, _, rfl, .inl rfl⟩
  | obj fields =>
      obtain ⟨entries, _, rfl⟩ := chars_obj.mp printed
      exact ⟨_, _, rfl, .inl rfl⟩

theorem eq_of_closing {close : Char} (closing : close ∈ [',', ']', '\x7d'])
    : close = ',' ∨ close = ']' ∨ close = '\x7d' := by
  simpa using closing

/-- A first character that no number has is none of those of numbers, nor what may come after a value.
-/
theorem ne_of_lead {value : Json} {first other : Char} (named : lead value = some first)
    (unlike : InNumber other ∨ other ∈ [',', ']', '\x7d'])
    : other ≠ first := by
  have closing (close : Char) (listed : close ∈ [',', ']', '\x7d'])
      : close ≠ 'n' ∧ close ≠ 't' ∧ close ≠ 'f' ∧ close ≠ '"' ∧ close ≠ '[' ∧ close ≠ '\x7b' := by
    rcases eq_of_closing listed with rfl | rfl | rfl <;> decide
  rcases unlike with number | listed
  · cases value with
    | bool value => cases value <;> cases named <;> exact ne_of_inNumber number rfl (by decide)
    | int _ | float _ => cases named
    | null | str _ | arr _ | obj _ =>
        cases named
        exact ne_of_inNumber number rfl (by decide)
  · obtain ⟨n, t, f, quote, bracket, brace⟩ := closing other listed
    cases value with
    | bool value =>
        cases value with
        | true =>
            cases named
            exact t
        | false =>
            cases named
            exact f
    | int _ | float _ => cases named
    | null =>
        cases named
        exact n
    | str _ =>
        cases named
        exact quote
    | arr _ =>
        cases named
        exact bracket
    | obj _ =>
        cases named
        exact brace

/-- No value begins with what may come after one. -/
theorem unlike_ends {value : Json} {text : List Char} {close : Char}
    (closing : close ∈ [',', ']', '\x7d']) (printed : chars value = .ok text)
    : ∃ first later, text = first :: later ∧ first ≠ close := by
  obtain ⟨first, rest, same, begins⟩ := begins_of_chars printed
  refine ⟨first, rest, same, ?_⟩
  rcases begins with named | ⟨_, number⟩
  · exact (ne_of_lead named (.inr closing)).symm
  · rcases eq_of_closing closing with rfl | rfl | rfl <;>
      exact ne_of_inNumber number rfl (by decide)

/-- Values that begin differently are apart. -/
theorem apart_of_lead {one other : Json} {text text' : List Char}
    (printed : chars one = .ok text) (printed' : chars other = .ok text')
    (differs : lead one ≠ lead other) (after : List Char → Prop)
    : Apart after text text' := by
  obtain ⟨first, rest, same, begins⟩ := begins_of_chars printed
  obtain ⟨first', rest', same', begins'⟩ := begins_of_chars printed'
  refine apart_of_head same same' ?_
  rcases begins with named | ⟨none, number⟩
  · rcases begins' with named' | ⟨none', number'⟩
    · rintro rfl
      exact differs (named.trans named'.symm)
    · exact (ne_of_lead named (.inl number')).symm
  · rcases begins' with named' | ⟨none', number'⟩
    · exact ne_of_lead named' (.inl number)
    · exact (differs (none.trans none'.symm)).elim

-----------------------------------------------------------------------------------------
-- Values
-----------------------------------------------------------------------------------------

/-- A character of a value without quotes or brackets. -/
def InWord (char : Char) : Prop :=
  char ∉ [',', ']', '\x7d']

theorem inWord_of_inNumber {char : Char} (number : InNumber char) : InWord char := by
  intro listed
  rcases eq_of_closing listed with same | same | same <;>
    exact ne_of_inNumber number rfl (by decide) same

/-- What a value begins with that is neither a null, a truth value nor a number. -/
def openings : List (Option Char) :=
  [some '"', some '[', some '\x7b']

/-- A null, a truth value or a number is a word. -/
theorem inWord_of_chars {value : Json} {text : List Char} (printed : chars value = .ok text)
    (word : lead value ∉ openings)
    : ∀ char ∈ text, InWord char := by
  cases value with
  | null =>
      cases printed
      change ∀ char ∈ ['n', 'u', 'l', 'l'], InWord char
      simp [InWord]
  | bool value =>
      cases value with
      | true =>
          cases printed
          change ∀ char ∈ ['t', 'r', 'u', 'e'], InWord char
          simp [InWord]
      | false =>
          cases printed
          change ∀ char ∈ ['f', 'a', 'l', 's', 'e'], InWord char
          simp [InWord]
  | int value =>
      cases printed
      exact fun char member => inWord_of_inNumber (inNumber_int member)
  | float value =>
      cases value with
      | infinity _ | nan => cases printed
      | finite value =>
          cases printed
          exact fun char member => inWord_of_inNumber (value.inNumber_of_mem member)
  | str _ | arr _ | obj _ => exact (word (by simp [lead, openings])).elim

/-- Values that print as words are apart. -/
theorem apart_of_word {one other : Json} {text text' : List Char} (printed : chars one = .ok text)
    (printed' : chars other = .ok text') (word : lead one ∉ openings)
    (same : lead one = lead other)
    : Apart Ends text text' :=
  apart_of_plain (inWord_of_chars printed word) (inWord_of_chars printed' (same ▸ word))
    (fun char _ ends unlisted => unlisted (ends char _ rfl))

/-- The texts of a printed list come from its items. -/
theorem exists_item {items : List Json} {texts : List (List Char)}
    (printed : itemChars items = .ok texts) {text : List Char} (member : text ∈ texts)
    : ∃ item ∈ items, chars item = .ok text := by
  induction items generalizing texts with
  | nil =>
      cases printed
      cases member
  | cons item rest ih =>
      obtain ⟨first, more, head, later, rfl⟩ := itemChars_cons.mp printed
      rcases List.mem_cons.mp member with here | there
      · exact ⟨item, List.mem_cons_self, here ▸ head⟩
      · obtain ⟨value, among, known⟩ := ih later there
        exact ⟨value, List.mem_cons_of_mem _ among, known⟩

/-- The members of a printed object come from its fields. -/
theorem exists_field {fields : List (String × Json)} {entries : List (String × List Char)}
    (printed : fieldChars fields = .ok entries) {key : String} {text : List Char}
    (member : (key, text) ∈ entries)
    : ∃ value, (key, value) ∈ fields ∧ chars value = .ok text := by
  induction fields generalizing entries with
  | nil =>
      cases printed
      cases member
  | cons field rest ih =>
      obtain ⟨first, more, head, later, rfl⟩ := fieldChars_cons.mp printed
      rcases List.mem_cons.mp member with here | there
      · cases here
        exact ⟨field.2, List.mem_cons_self, head⟩
      · obtain ⟨value, among, text⟩ := ih later there
        exact ⟨value, List.mem_cons_of_mem _ among, text⟩

theorem exists_entry {fields : List (String × Json)} {entries : List (String × List Char)}
    (printed : fieldChars fields = .ok entries) {key : String} {value : Json}
    (member : (key, value) ∈ fields)
    : ∃ text, (key, text) ∈ entries ∧ chars value = .ok text := by
  induction fields generalizing entries with
  | nil => cases member
  | cons field rest ih =>
      obtain ⟨first, more, head, later, rfl⟩ := fieldChars_cons.mp printed
      rcases List.mem_cons.mp member with here | there
      · cases here
        exact ⟨first, List.mem_cons_self, head⟩
      · obtain ⟨text, among, text'⟩ := ih later there
        exact ⟨text, List.mem_cons_of_mem _ among, text'⟩

theorem mem_sorted {entries : List (String × List Char)} {entry : String × List Char}
    : entry ∈ sorted entries ↔ entry ∈ entries :=
  (List.perm_insertionSort _ entries).mem_iff

/-- A member is read back from what it begins: its key up to the quote, and then its value. -/
theorem apart_member {key other : String} {text text' : List Char}
    (apart : Apart Ends text text')
    : Apart Ends (member (key, text)) (member (other, text')) := by
  intro rest more here there same
  simp only [member, List.append_assoc, List.cons_append] at same
  obtain ⟨named, valued⟩ := quoted_unique same
  obtain ⟨equal, remainder⟩ := apart rest more here there (List.cons.inj valued).2
  exact ⟨by rw [named, equal], remainder⟩

theorem member_injective {one other : String × List Char} (same : member one = member other)
    : one = other := by
  obtain ⟨named, valued⟩ := quoted_unique same
  exact Prod.ext named (List.cons.inj valued).2

/-- Texts of members up to the closing brace. -/
theorem members_unique {entries others : List (String × List Char)} {rest more : List Char}
    (apart : ∀ one ∈ entries, ∀ other ∈ others, Apart Ends one.2 other.2)
    (same : joined ((sorted entries).map member) ++ '\x7d' :: rest
      = joined ((sorted others).map member) ++ '\x7d' :: more)
    : sorted entries = sorted others ∧ rest = more := by
  have apartMembers : ∀ one ∈ (sorted entries).map member, ∀ other ∈ (sorted others).map member,
      Apart Ends one other := by
    intro one here other there
    obtain ⟨entry, among, rfl⟩ := List.mem_map.mp here
    obtain ⟨entry', among', rfl⟩ := List.mem_map.mp there
    exact apart_member (apart entry (mem_sorted.mp among) entry' (mem_sorted.mp among'))
  have begins : ∀ text ∈ (sorted entries).map member ++ (sorted others).map member,
      ∃ first later, text = first :: later ∧ first ≠ '\x7d' := by
    intro text among
    rw [← List.map_append] at among
    obtain ⟨entry, _, rfl⟩ := List.mem_map.mp among
    exact ⟨'"', _, rfl, by decide⟩
  obtain ⟨equal, remainder⟩ := intercalate_unique (by decide) (ends_cons (by simp))
    (ends_cons (by simp)) apartMembers begins same
  exact ⟨List.map_injective_iff.mpr (fun _ _ => member_injective) equal, remainder⟩

/-- Texts of items up to the closing bracket. -/
theorem items_unique {items others : List Json} {texts texts' : List (List Char)}
    {rest more : List Char} (printed : itemChars items = .ok texts)
    (printed' : itemChars others = .ok texts')
    (apart : ∀ one ∈ texts, ∀ other ∈ texts', Apart Ends one other)
    (same : joined texts ++ ']' :: rest = joined texts' ++ ']' :: more)
    : texts = texts' ∧ rest = more := by
  refine intercalate_unique (by decide) (ends_cons (by simp)) (ends_cons (by simp)) apart ?_ same
  intro text among
  rcases List.mem_append.mp among with here | there
  · obtain ⟨item, _, known⟩ := exists_item printed here
    exact unlike_ends (by simp) known
  · obtain ⟨item, _, known⟩ := exists_item printed' there
    exact unlike_ends (by simp) known

/-- The text of a value is apart from that of any value, in front of what may come after one. -/
def SelfDelimiting (one : Json) : Prop :=
  ∀ (other : Json) (text text' : List Char),
    chars one = .ok text
    → chars other = .ok text'
    → Apart Ends text text'

/-- The text of a value tells where it ends, by induction on its parts. -/
theorem selfDelimiting (value : Json) : SelfDelimiting value := by
  refine Json.induction_parts (motive := SelfDelimiting) (fun one fieldwise itemwise => ?_) value
  intro other text text' printed printed'
  by_cases kind : lead one = lead other
  · cases one with
    | null | int _ | float _ => exact apart_of_word printed printed' (by simp [lead, openings]) kind
    | bool truth =>
        refine apart_of_word printed printed' ?_ kind
        cases truth <;> simp [lead, openings]
    | str string =>
        cases other with
        | str string' =>
            cases printed
            cases printed'
            intro rest more _ _ same
            obtain ⟨equal, remainder⟩ := quoted_unique same
            exact ⟨by rw [equal], remainder⟩
        | bool truth => cases truth <;> cases kind
        | _ => cases kind
    | arr items =>
        cases other with
        | arr items' =>
            obtain ⟨texts, each, rfl⟩ := chars_arr.mp printed
            obtain ⟨texts', each', rfl⟩ := chars_arr.mp printed'
            intro rest more _ _ same
            simp only [List.cons_append, List.append_assoc, List.cons.injEq, true_and,
              List.nil_append] at same
            have apart : ∀ one ∈ texts, ∀ other ∈ texts', Apart Ends one other := by
              intro one here other there
              obtain ⟨item, among, known⟩ := exists_item each here
              obtain ⟨item', _, known'⟩ := exists_item each' there
              exact itemwise items item rfl among item' one other known known'
            obtain ⟨equal, remainder⟩ := items_unique each each' apart same
            exact ⟨by rw [equal], remainder⟩
        | bool truth => cases truth <;> cases kind
        | _ => cases kind
    | obj fields =>
        cases other with
        | obj fields' =>
            obtain ⟨entries, each, rfl⟩ := chars_obj.mp printed
            obtain ⟨entries', each', rfl⟩ := chars_obj.mp printed'
            intro rest more _ _ same
            simp only [List.cons_append, List.append_assoc, List.cons.injEq, true_and,
              List.nil_append] at same
            have apart : ∀ one ∈ entries, ∀ other ∈ entries', Apart Ends one.2 other.2 := by
              intro one here other there
              obtain ⟨inner, among, known⟩ := exists_field each here
              obtain ⟨inner', _, known'⟩ := exists_field each' there
              exact fieldwise fields one.1 inner rfl among inner' one.2 other.2 known known'
            obtain ⟨equal, remainder⟩ := members_unique apart same
            exact ⟨by rw [equal], remainder⟩
        | bool truth => cases truth <;> cases kind
        | _ => cases kind
  · exact apart_of_lead printed printed' kind Ends

-----------------------------------------------------------------------------------------
-- One text, one value
-----------------------------------------------------------------------------------------

/-- Equal texts of items come from equal numbers of items, each printed like its counterpart. -/
theorem reorderedItems_of_texts {items others : List Json} {texts : List (List Char)}
    (printed : itemChars items = .ok texts) (printed' : itemChars others = .ok texts)
    (each : ∀ item ∈ items, ∀ other ∈ others, ∀ text,
      chars item = .ok text → chars other = .ok text → Json.Reordered item other)
    : Json.ReorderedItems items others := by
  induction items generalizing others texts with
  | nil =>
      cases printed
      cases others with
      | nil => exact .nil
      | cons other more =>
          obtain ⟨_, _, _, _, impossible⟩ := itemChars_cons.mp printed'
          cases impossible
  | cons item rest ih =>
      obtain ⟨text, later, head, tail, rfl⟩ := itemChars_cons.mp printed
      cases others with
      | nil => cases printed'
      | cons other more =>
          obtain ⟨text', later', head', tail', same⟩ := itemChars_cons.mp printed'
          cases same
          refine .cons (each item List.mem_cons_self other List.mem_cons_self text head head') ?_
          exact ih tail tail' (fun one here another there =>
            each one (List.mem_cons_of_mem _ here) another (List.mem_cons_of_mem _ there))

/-- Equal members come from fields of the same keys, each printed like its counterpart. -/
theorem lookups_of_entries {fields others : List (String × Json)}
    {entries entries' : List (String × List Char)} (printed : fieldChars fields = .ok entries)
    (printed' : fieldChars others = .ok entries') (same : sorted entries = sorted entries')
    (distinct : (Dict.keys others).Nodup)
    (each : ∀ key value other text,
      (key, value) ∈ fields
      → (key, other) ∈ others
      → chars value = .ok text
      → chars other = .ok text
      → Json.Reordered value other)
    (key : String)
    : Option.Rel Json.Reordered (fields.lookup key) (others.lookup key) := by
  have moves (entry : String × List Char) : entry ∈ entries ↔ entry ∈ entries' := by
    rw [← mem_sorted, same, mem_sorted]
  cases found : fields.lookup key with
  | none =>
      have absent : others.lookup key = none := by
        rw [Dict.lookup_eq_none_iff] at found ⊢
        intro member
        obtain ⟨⟨name, other⟩, there, rfl⟩ := List.mem_map.mp member
        obtain ⟨text, among, _⟩ := exists_entry printed' there
        obtain ⟨value, here, _⟩ := exists_field printed ((moves _).mpr among)
        exact found (List.mem_map.mpr ⟨_, here, rfl⟩)
      rw [absent]
      exact .none
  | some value =>
      have here := Dict.mem_of_lookup found
      obtain ⟨text, among, known⟩ := exists_entry printed here
      obtain ⟨other, there, known'⟩ := exists_field printed' ((moves _).mp among)
      rw [Dict.lookup_of_mem distinct there]
      exact .some (each key value other text here there known known')

/-- Values without parts that print alike are one value. -/
theorem eq_of_word {one other : Json} {text : List Char} (printed : chars one = .ok text)
    (printed' : chars other = .ok text) (number : lead one = none) (same : lead one = lead other)
    : one = other := by
  rw [number] at same
  cases one with
  | int value =>
      cases other with
      | int value' =>
          cases printed
          have equal := Except.ok.inj printed'
          rw [Int.toString_eq_repr, Int.toString_eq_repr] at equal
          rw [Int.repr_injective (String.toList_injective equal.symm)]
      | float value' =>
          cases value' with
          | infinity _ | nan => cases printed'
          | finite value' =>
              cases printed
              exact (int_ne_float value value' (Except.ok.inj printed').symm).elim
      | bool truth => cases truth <;> cases same
      | _ => cases same
  | float value =>
      cases value with
      | infinity _ | nan => cases printed
      | finite value =>
          cases printed
          cases other with
          | int value' => exact (int_ne_float value' value (Except.ok.inj printed')).elim
          | float value' =>
              cases value' with
              | infinity _ | nan => cases printed'
              | finite value' => rw [FiniteFloat.repr_injective (Except.ok.inj printed')]
          | bool truth => cases truth <;> cases same
          | _ => cases same
  | bool truth => cases truth <;> cases number
  | _ => cases number

/-- Whatever prints like the value is the value in another key order. -/
def Determined (value : Json) : Prop :=
  ∀ (other : Json) (text : List Char),
    value.DistinctKeys
    → other.DistinctKeys
    → chars value = .ok text
    → chars other = .ok text
    → Json.Reordered value other

/-- Values that print alike begin alike. -/
theorem lead_of_text {value other : Json} {text : List Char} (printed : chars value = .ok text)
    (printed' : chars other = .ok text)
    : lead value = lead other := by
  obtain ⟨first, rest, rfl, begins⟩ := begins_of_chars printed
  obtain ⟨_, _, same, begins'⟩ := begins_of_chars printed'
  obtain ⟨rfl, rfl⟩ := List.cons.inj same
  rcases begins with named | ⟨none, number⟩
  · rcases begins' with named' | ⟨_, number'⟩
    · exact named.trans named'.symm
    · exact (ne_of_lead named (.inl number') rfl).elim
  · rcases begins' with named' | ⟨none', _⟩
    · exact (ne_of_lead named' (.inl number) rfl).elim
    · exact none.trans none'.symm

/-- A text determines its value up to key order, by induction on the parts of the value. -/
theorem determined (value : Json) : Determined value := by
  refine Json.induction_parts (motive := Determined) (fun value fieldwise itemwise => ?_) value
  intro other text distinct distinct' printed printed'
  have kind := lead_of_text printed printed'
  cases value with
  | null =>
      cases other with
      | null => exact .refl _
      | bool truth => cases truth <;> cases kind
      | _ => cases kind
  | bool truth =>
      cases other with
      | bool truth' =>
          cases truth <;> cases truth' <;> first | exact .refl _ | cases kind
      | _ => cases truth <;> cases kind
  | int _ | float _ => exact eq_of_word printed printed' rfl kind ▸ .refl _
  | str string =>
      cases other with
      | str string' =>
          cases printed
          have same : quoted string' ++ [] = quoted string ++ [] := by
            rw [List.append_nil, List.append_nil]
            exact Except.ok.inj printed'
          rw [(quoted_unique same).1]
          exact .refl _
      | bool truth => cases truth <;> cases kind
      | _ => cases kind
  | arr items =>
      cases other with
      | arr items' =>
          obtain ⟨texts, each, rfl⟩ := chars_arr.mp printed
          obtain ⟨texts', each', same⟩ := chars_arr.mp printed'
          have apart : ∀ one ∈ texts, ∀ other ∈ texts', Apart Ends one other := by
            intro one here other there
            obtain ⟨item, _, known⟩ := exists_item each here
            obtain ⟨item', _, known'⟩ := exists_item each' there
            exact selfDelimiting item item' one other known known'
          obtain ⟨equal, _⟩ := items_unique each each' apart (List.cons.inj same).2
          subst equal
          refine .arr (reorderedItems_of_texts each each' (fun item here other there text => ?_))
          exact itemwise items item rfl here other text (Json.DistinctItems.of_mem distinct here)
            (Json.DistinctItems.of_mem distinct' there)
      | bool truth => cases truth <;> cases kind
      | _ => cases kind
  | obj fields =>
      cases other with
      | obj fields' =>
          obtain ⟨entries, each, rfl⟩ := chars_obj.mp printed
          obtain ⟨entries', each', same⟩ := chars_obj.mp printed'
          have apart : ∀ one ∈ entries, ∀ other ∈ entries', Apart Ends one.2 other.2 := by
            intro one here other there
            obtain ⟨inner, _, known⟩ := exists_field each here
            obtain ⟨inner', _, known'⟩ := exists_field each' there
            exact selfDelimiting inner inner' one.2 other.2 known known'
          obtain ⟨equal, _⟩ := members_unique apart (List.cons.inj same).2
          refine (Json.reordered_obj_iff distinct.1 distinct'.1).mpr
            (lookups_of_entries each each' equal distinct'.1 ?_)
          intro key inner other text here there
          exact fieldwise fields key inner rfl here other text (distinct.2.of_mem here)
            (distinct'.2.of_mem there)
      | bool truth => cases truth <;> cases kind
      | _ => cases kind

/-- Two values have one canonical text exactly when they are one value up to key order. -/
theorem encode_eq_iff {value other : Json} {text : String} (distinct : value.DistinctKeys)
    (distinct' : other.DistinctKeys) (printed : encode value = .ok text)
    : encode other = .ok text ↔ Json.Reordered value other := by
  refine ⟨fun printed' => ?_, fun order => encode_reordered order distinct printed⟩
  have charsOf {json : Json} (known : encode json = .ok text) : chars json = .ok text.toList := by
    unfold encode at known
    cases found : chars json with
    | error exn => simp [found, bind, Except.bind] at known
    | ok inner =>
        simp only [found, bind, Except.bind, pure, Except.pure] at known
        cases known
        rw [String.toList_ofList]
  exact determined value other text.toList distinct distinct' (charsOf printed) (charsOf printed')

end CanonicalJson

end SecureMcp
