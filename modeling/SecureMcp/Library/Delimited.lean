import Mathlib.Data.List.Basic

/-! Texts that can be told apart from what follows them: a span of plain characters, a word of code
characters up to a closing one, and a list of texts with separators between them.
-/

namespace Delimited

variable {σ α : Type}

/-- (Apart after one other) means that two texts in front of anything that may come after them are one
text in front of one remainder, or differ.
-/
def Apart (after : List σ → Prop) (one other : List σ) : Prop :=
  ∀ rest more,
    after rest
    → after more
    → one ++ rest = other ++ more
    → one = other ∧ rest = more

/-- Texts that begin differently are apart. -/
theorem apart_of_head {after : List σ → Prop} {one other : List σ} {first second : σ}
    {left right : List σ} (begins : one = first :: left) (begins' : other = second :: right)
    (differs : first ≠ second)
    : Apart after one other := by
  subst begins begins'
  intro rest more _ _ same
  exact (differs (List.cons.inj same).1).elim

/-- Spans of plain characters are apart when nothing plain comes after them, by induction on the first.
-/
theorem apart_of_plain {after : List σ → Prop} {plain : σ → Prop} {one other : List σ}
    (first : ∀ char ∈ one, plain char) (second : ∀ char ∈ other, plain char)
    (stops : ∀ char rest, after (char :: rest) → ¬ plain char)
    : Apart after one other := by
  intro rest more here there same
  induction one generalizing other with
  | nil =>
      cases other with
      | nil => exact ⟨rfl, same⟩
      | cons char others =>
          have begins : rest = char :: (others ++ more) := same
          rw [begins] at here
          exact (stops char _ here (second char List.mem_cons_self)).elim
  | cons char ones ih =>
      cases other with
      | nil =>
          have begins : char :: (ones ++ rest) = more := same
          rw [← begins] at there
          exact (stops char _ there (first char List.mem_cons_self)).elim
      | cons head others =>
          obtain ⟨sameHead, sameTail⟩ := List.cons.inj same
          subst sameHead
          obtain ⟨equal, remainder⟩ := ih
            (fun char member => first char (List.mem_cons_of_mem _ member))
            (fun char member => second char (List.mem_cons_of_mem _ member)) sameTail
          exact ⟨congrArg _ equal, remainder⟩

/-- Words over a code end at the closing character, which begins no code, by induction on the first.
-/
theorem words_unique {code : α → List σ} {close : σ} {rest more : List σ}
    (codes : ∀ one other left right,
      code one ++ left = code other ++ right → one = other ∧ left = right)
    (opens : ∀ letter left right, code letter ++ left ≠ close :: right) {word other : List α}
    (same : word.flatMap code ++ close :: rest = other.flatMap code ++ close :: more)
    : word = other ∧ rest = more := by
  induction word generalizing other with
  | nil =>
      cases other with
      | nil => exact ⟨rfl, (List.cons.inj same).2⟩
      | cons letter letters =>
          rw [List.flatMap_cons, List.append_assoc] at same
          exact (opens letter _ _ same.symm).elim
  | cons letter letters ih =>
      rw [List.flatMap_cons, List.append_assoc] at same
      cases other with
      | nil => exact (opens letter _ _ same).elim
      | cons head others =>
          rw [List.flatMap_cons, List.append_assoc] at same
          obtain ⟨sameHead, sameTail⟩ := codes _ _ _ _ same
          obtain ⟨equal, remainder⟩ := ih sameTail
          exact ⟨by rw [sameHead, equal], remainder⟩

/-- Texts with separators between them. -/
theorem intercalate_cons (separator : σ) (text : List σ) (rest : List (List σ))
    : List.intercalate [separator] (text :: rest)
      = text ++ rest.flatMap (fun later => separator :: later) := by
  induction rest generalizing text with
  | nil => simp
  | cons next more ih =>
      rw [List.intercalate_cons_cons, ih next]
      simp

section

variable {after : List σ → Prop} {separator close : σ}

/-- What comes after a text of a list. -/
theorem follows_tail (separates : ∀ rest, after (separator :: rest))
    (closes : ∀ rest, after (close :: rest)) (texts : List (List σ)) (rest : List σ)
    : after (texts.flatMap (fun later => separator :: later) ++ close :: rest) := by
  cases texts with
  | nil => exact closes rest
  | cons text later => exact separates _

/-- Texts behind separators are read back one by one, by induction on the first list. -/
theorem tails_unique (differs : separator ≠ close) (separates : ∀ rest, after (separator :: rest))
    (closes : ∀ rest, after (close :: rest)) {texts others : List (List σ)} {rest more : List σ}
    (apart : ∀ one ∈ texts, ∀ other ∈ others, Apart after one other)
    (same : texts.flatMap (fun later => separator :: later) ++ close :: rest
      = others.flatMap (fun later => separator :: later) ++ close :: more)
    : texts = others ∧ rest = more := by
  induction texts generalizing others with
  | nil =>
      cases others with
      | nil => exact ⟨rfl, (List.cons.inj same).2⟩
      | cons other later => exact (differs (List.cons.inj same).1.symm).elim
  | cons text texts ih =>
      cases others with
      | nil => exact (differs (List.cons.inj same).1).elim
      | cons other others =>
          simp only [List.flatMap_cons, List.cons_append, List.append_assoc, List.cons.injEq,
            true_and] at same
          obtain ⟨sameText, sameTail⟩ := apart text List.mem_cons_self other List.mem_cons_self _ _
            (follows_tail separates closes texts rest) (follows_tail separates closes others more)
            same
          obtain ⟨equal, remainder⟩ := ih
            (fun one here other there =>
              apart one (List.mem_cons_of_mem _ here) other (List.mem_cons_of_mem _ there))
            sameTail
          exact ⟨by rw [sameText, equal], remainder⟩

/-- A list of texts is read back from its separators up to the closing character, which begins none of
the texts.
-/
theorem intercalate_unique (differs : separator ≠ close)
    (separates : ∀ rest, after (separator :: rest)) (closes : ∀ rest, after (close :: rest))
    {texts others : List (List σ)} {rest more : List σ}
    (apart : ∀ one ∈ texts, ∀ other ∈ others, Apart after one other)
    (begins : ∀ text ∈ texts ++ others, ∃ first later, text = first :: later ∧ first ≠ close)
    (same : List.intercalate [separator] texts ++ close :: rest
      = List.intercalate [separator] others ++ close :: more)
    : texts = others ∧ rest = more := by
  cases texts with
  | nil =>
      cases others with
      | nil => exact ⟨rfl, by simpa using same⟩
      | cons other others =>
          obtain ⟨first, later, starts, unlike⟩ := begins other (by simp)
          rw [intercalate_cons, starts] at same
          exact (unlike (List.cons.inj same).1.symm).elim
  | cons text texts =>
      cases others with
      | nil =>
          obtain ⟨first, later, starts, unlike⟩ := begins text (by simp)
          rw [intercalate_cons, starts] at same
          exact (unlike (List.cons.inj same).1).elim
      | cons other others =>
          rw [intercalate_cons, intercalate_cons, List.append_assoc, List.append_assoc] at same
          obtain ⟨sameText, sameTail⟩ := apart text List.mem_cons_self other List.mem_cons_self _ _
            (follows_tail separates closes texts rest) (follows_tail separates closes others more)
            same
          obtain ⟨equal, remainder⟩ := tails_unique differs separates closes
            (fun one here other there =>
              apart one (List.mem_cons_of_mem _ here) other (List.mem_cons_of_mem _ there))
            sameTail
          exact ⟨by rw [sameText, equal], remainder⟩

end

end Delimited
