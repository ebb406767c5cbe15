import Mathlib.Data.List.Forall2
import Mathlib.Data.List.Induction

/-! Chains of links: each link names the hash of the link before it, and the first names a
given one.
-/

namespace HashChain

variable {α η : Type} (prev curr : α → η)

/-- Every link continues the one before it, and the first continues `hash`. -/
def Linked (hash : η) : List α → Prop
  | [] => True
  | link :: rest => prev link = hash ∧ Linked (curr link) rest

/-- The hash that the next link has to name. -/
def head (hash : η) : List α → η
  | [] => hash
  | link :: rest => head (curr link) rest

@[simp] theorem head_concat (hash : η) (links : List α) (link : α)
    : head curr hash (links ++ [link]) = curr link := by
  induction links generalizing hash with
  | nil => rfl
  | cons first rest ih => exact ih (curr first)

theorem head_append (hash : η) (first later : List α)
    : head curr hash (first ++ later) = head curr (head curr hash first) later := by
  induction first generalizing hash with
  | nil => rfl
  | cons link rest ih => exact ih (curr link)

/-- A chain grows by exactly the links that name its head, by induction on the chain. -/
theorem linked_concat_iff {hash : η} {links : List α} {link : α}
    : Linked prev curr hash (links ++ [link])
      ↔ Linked prev curr hash links ∧ prev link = head curr hash links := by
  induction links generalizing hash with
  | nil => simp [Linked, head]
  | cons first rest ih =>
      simp only [List.cons_append, Linked, head, ih]
      exact and_assoc.symm

/-- A chain splits anywhere. -/
theorem linked_append_iff {hash : η} {first later : List α}
    : Linked prev curr hash (first ++ later)
      ↔ Linked prev curr hash first ∧ Linked prev curr (head curr hash first) later := by
  induction first generalizing hash with
  | nil => simp [Linked, head]
  | cons link rest ih => simp [Linked, head, ih, and_assoc]

/-- Every link names the first hash or that of another link. -/
theorem prev_of_linked {hash : η} {links : List α} (linked : Linked prev curr hash links)
    : ∀ link ∈ links, prev link = hash ∨ ∃ other ∈ links, prev link = curr other := by
  induction links generalizing hash with
  | nil => simp
  | cons first rest ih =>
      intro link member
      rcases List.mem_cons.mp member with here | later
      · exact Or.inl (here ▸ linked.1)
      · rcases ih linked.2 link later with named | ⟨other, there, named⟩
        · exact Or.inr ⟨first, List.mem_cons_self, named⟩
        · exact Or.inr ⟨other, List.mem_cons_of_mem _ there, named⟩

section

variable {prev curr} {π : Type} {content : α → π} {hash : η} {written : List α}

/-- When equal hashes mean equal previous hashes, and no hash is the first one, a beginning
of a chain is known by its last hash, by induction on the beginning from its end.
-/
theorem prefix_of_head (linked : Linked prev curr hash written)
    (binding : ∀ link ∈ written, ∀ other ∈ written, curr link = curr other → prev link = prev other)
    (fresh : ∀ link ∈ written, curr link ≠ hash)
    {one two : List α} (first : one <+: written) (second : two <+: written)
    (same : head curr hash one = head curr hash two)
    : one = two := by
  induction one using List.reverseRecOn generalizing two with
  | nil =>
      rcases List.eq_nil_or_concat two with empty | ⟨before, last, split⟩
      · exact empty.symm
      · rw [split, List.concat_eq_append] at same second
        rw [head_concat] at same
        exact absurd same.symm (fresh last (second.subset (by simp)))
  | append_singleton one link ih =>
      rw [head_concat] at same
      rcases List.eq_nil_or_concat two with empty | ⟨before, last, split⟩
      · rw [empty] at same
        exact absurd same (fresh link (first.subset (by simp)))
      · rw [List.concat_eq_append] at split
        subst split
        rw [head_concat] at same
        have previous := binding link (first.subset (by simp)) last (second.subset (by simp)) same
        obtain ⟨rest, whole⟩ := first
        obtain ⟨others, other⟩ := second
        have left := linked
        rw [← whole, linked_append_iff, linked_concat_iff] at left
        have right := linked
        rw [← other, linked_append_iff, linked_concat_iff] at right
        have equal : one = before := by
          refine ih ⟨link :: rest, by simpa using whole⟩ ⟨last :: others, by simpa using other⟩ ?_
          rw [← left.1.2, ← right.1.2, previous]
        subst equal
        have tails : link :: rest = last :: others := by
          simpa using whole.trans other.symm
        rw [(List.cons.inj tails).1]

/-- A chain all of whose hashes are hashes of a written chain has the contents of a beginning
of the written chain, by induction on the chain from its end.
-/
theorem contents_prefix (chain : Linked prev curr hash written)
    {table : List α} (linked : Linked prev curr hash table)
    (bound : ∀ link ∈ table ++ written, ∀ other ∈ written,
      curr link = curr other → prev link = prev other ∧ content link = content other)
    (fresh : ∀ link ∈ written, curr link ≠ hash)
    (known : ∀ link ∈ table, ∃ other ∈ written, curr link = curr other)
    : table.map content <+: written.map content := by
  have binding : ∀ link ∈ written, ∀ other ∈ written, curr link = curr other
      → prev link = prev other :=
    fun link member other there same =>
      (bound link (List.mem_append_right _ member) other there same).1
  have beginning : ∃ one,
      one <+: written
      ∧ one.map content = table.map content
      ∧ head curr hash one = head curr hash table := by
    induction table using List.reverseRecOn with
    | nil => exact ⟨[], List.nil_prefix, rfl, rfl⟩
    | append_singleton table link ih =>
        rw [linked_concat_iff] at linked
        obtain ⟨one, begins, contents, heads⟩ := ih linked.1
          (fun other member => bound other (by
            rcases List.mem_append.mp member with before | after
            · simp [before]
            · simp [after]))
          (fun other member => known other (by simp [member]))
        obtain ⟨other, there, same⟩ := known link (by simp)
        obtain ⟨previous, equal⟩ := bound link (by simp) other there same
        obtain ⟨before, after, split⟩ := List.append_of_mem there
        have parts := chain
        rw [split, linked_append_iff] at parts
        have last : one = before := by
          refine prefix_of_head chain binding fresh begins ⟨other :: after, split.symm⟩ ?_
          rw [heads, ← linked.2, previous, parts.2.1]
        subst last
        refine ⟨one ++ [other], ⟨after, by simp [split]⟩, ?_, ?_⟩
        · simp [contents, equal]
        · rw [head_concat, head_concat, same]
  obtain ⟨one, begins, contents, _⟩ := beginning
  exact contents ▸ begins.map content

/-- When links with one hash are related and continue one hash, and no link has the first hash, chains
with one last hash are related link by link, by induction on the first from its end.
-/
theorem forall₂_of_head {related : α → α → Prop} {one two : List α}
    (first : Linked prev curr hash one) (second : Linked prev curr hash two)
    (binding : ∀ link ∈ one, ∀ other ∈ two,
      curr link = curr other → prev link = prev other ∧ related link other)
    (fresh : ∀ link ∈ one ++ two, curr link ≠ hash) (same : head curr hash one = head curr hash two)
    : List.Forall₂ related one two := by
  induction one using List.reverseRecOn generalizing two with
  | nil =>
      rcases List.eq_nil_or_concat two with empty | ⟨before, last, split⟩
      · subst empty
        exact .nil
      · rw [split, List.concat_eq_append, head_concat] at same
        exact absurd same.symm (fresh last (by simp [split]))
  | append_singleton one link ih =>
      rcases List.eq_nil_or_concat two with empty | ⟨before, last, split⟩
      · rw [empty, head_concat] at same
        exact absurd same (fresh link (by simp))
      · rw [List.concat_eq_append] at split
        subst split
        rw [head_concat, head_concat] at same
        rw [linked_concat_iff] at first second
        obtain ⟨previous, alike⟩ := binding link (by simp) last (by simp) same
        refine List.rel_append ?_ (.cons alike .nil)
        refine ih first.1 second.1
          (fun link here other there => binding link (by simp [here]) other (by simp [there]))
          (fun link member => fresh link ?_) ?_
        · rcases List.mem_append.mp member with here | there
          · simp [here]
          · simp [there]
        · rw [← first.2, ← second.2, previous]

end

end HashChain
