import CallAtlas.Syntax.Tree

/-!
# Places in a syntax tree

The address of a node says which child to take at each step on the way down to it.  In the lexicographic order
of addresses a node stands before everything inside it, and a child with everything inside it before its younger
siblings: this is the order in which the text opens the nodes.  `addresses` lists the addresses of a tree in this
order, each once (`addresses_sorted`), and misses none (`mem_addresses_iff`).
-/

namespace CallAtlas.Syntax.Tree

/-- The way down to a node: the number of the child that each step goes to. -/
abbrev Address := List Nat

def at? : Tree → Address → Option Tree
  | t, [] => some t
  | t, i :: rest => t.children[i]?.bind fun child => child.at? rest

/-- The nodes around the place with the given address, the innermost first. -/
def around : Tree → Address → List Tree
  | _, [] => []
  | t, i :: rest => (t.children[i]?.elim [] fun child => child.around rest) ++ [t]

/-- The number of the first child in the role `f`. -/
def indexIn (f : Field) (t : Tree) : Option Nat := t.children.findIdx? fun c => c.field == some f

mutual

/-- The addresses of all nodes of a tree, in the order of the text. -/
def addresses : Tree → List Address
  | .node _ _ _ _ cs => [] :: addressesFrom 0 cs

/-- The addresses of all nodes of siblings, the first of which has the number `i`. -/
def addressesFrom (i : Nat) : List Tree → List Address
  | [] => []
  | t :: ts => t.addresses.map (i :: ·) ++ addressesFrom (i + 1) ts

end

@[simp] theorem at?_nil (t : Tree) : t.at? [] = some t := rfl

theorem at?_cons (t : Tree) (i : Nat) (rest : Address) :
    t.at? (i :: rest) = t.children[i]?.bind fun child => child.at? rest := rfl

theorem at?_append (t : Tree) (front rest : Address) :
    t.at? (front ++ rest) = (t.at? front).bind fun inner => inner.at? rest := by
  induction front generalizing t with
  | nil => rfl
  | cons i front inductionHypothesis =>
    simp only [List.cons_append, at?_cons, Option.bind_assoc, inductionHypothesis]

theorem at?_concat {t inner : Tree} {front : Address} (found : t.at? front = some inner) (i : Nat) :
    t.at? (front ++ [i]) = inner.children[i]? := by
  rw [at?_append, found]
  cases shape : inner.children[i]? <;> simp [at?_cons, shape]

theorem around_append {t inner : Tree} {front : Address} (found : t.at? front = some inner) (rest : Address) :
    t.around (front ++ rest) = inner.around rest ++ t.around front := by
  induction front generalizing t with
  | nil => simp_all [around]
  | cons i front inductionHypothesis =>
    obtain ⟨child, isChild, below⟩ := Option.bind_eq_some_iff.mp found
    simp [around, isChild, inductionHypothesis below]

theorem around_concat {t inner : Tree} {front : Address} (found : t.at? front = some inner) (i : Nat) :
    t.around (front ++ [i]) = inner :: t.around front := by
  rw [around_append found]
  cases shape : inner.children[i]? <;> simp [around, shape]

mutual

theorem mem_addresses_iff (t : Tree) (p : Address) : p ∈ t.addresses ↔ (t.at? p).isSome = true := by
  cases t with
  | node k f s m cs =>
    rw [addresses, List.mem_cons, mem_addressesFrom_iff]
    cases p with
    | nil => simp
    | cons i rest =>
      simp only [reduceCtorEq, false_or, Nat.zero_add, List.cons.injEq, at?_cons, children]
      constructor
      · rintro ⟨_, _, ⟨rfl, rfl⟩, found⟩
        exact found
      · intro found
        exact ⟨i, rest, ⟨rfl, rfl⟩, found⟩

theorem mem_addressesFrom_iff (first : Nat) (ts : List Tree) (p : Address) :
    p ∈ addressesFrom first ts ↔
      ∃ i rest, p = (first + i) :: rest ∧ (ts[i]?.bind fun child => child.at? rest).isSome = true := by
  cases ts with
  | nil => simp [addressesFrom]
  | cons t ts =>
    rw [addressesFrom, List.mem_append, List.mem_map, mem_addressesFrom_iff]
    constructor
    · rintro (⟨rest, inFirst, rfl⟩ | ⟨i, rest, rfl, found⟩)
      · exact ⟨0, rest, by simp, by simpa [mem_addresses_iff] using inFirst⟩
      · exact ⟨i + 1, rest, by simp; omega, by simpa using found⟩
    · rintro ⟨i, rest, rfl, found⟩
      cases i with
      | zero => exact .inl ⟨rest, by simpa [mem_addresses_iff] using found, by simp⟩
      | succ i => exact .inr ⟨i, rest, by simp; omega, by simpa using found⟩

end

mutual

theorem addresses_sorted (t : Tree) : t.addresses.Pairwise (· < ·) := by
  cases t with
  | node k f s m cs =>
    rw [addresses, List.pairwise_cons]
    refine ⟨fun p member => ?_, addressesFrom_sorted 0 cs⟩
    obtain ⟨i, rest, rfl, -⟩ := (mem_addressesFrom_iff 0 cs p).mp member
    exact List.nil_lt_cons _ _

theorem addressesFrom_sorted (first : Nat) (ts : List Tree) :
    (addressesFrom first ts).Pairwise (· < ·) := by
  cases ts with
  | nil => simp [addressesFrom]
  | cons t ts =>
    rw [addressesFrom, List.pairwise_append]
    refine ⟨?_, addressesFrom_sorted (first + 1) ts, ?_⟩
    · rw [List.pairwise_map]
      exact (addresses_sorted t).imp fun below => List.cons_lt_cons_self.mpr below
    · -- Everything in a younger sibling starts with a greater number.
      intro p inFirst q inLater
      obtain ⟨rest, -, rfl⟩ := List.mem_map.mp inFirst
      obtain ⟨i, rest', rfl, -⟩ := (mem_addressesFrom_iff (first + 1) ts q).mp inLater
      exact List.cons_lt_cons_iff.mpr (.inl (by omega))

end

end CallAtlas.Syntax.Tree
