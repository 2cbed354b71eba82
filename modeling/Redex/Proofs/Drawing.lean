import Mathlib.Data.Finset.Card
import Mathlib.Data.List.DropRight
import Redex.Proofs.Freshness

/-!
# Drawing names

The search for a fresh name has no bound of its own: it passes over candidates as long as they are
taken. No two candidates are equal, so that every one that is passed over is another name that the
supply holds, and there are no more of these than the supply holds names (`exists_index_le`).

The base can be read off a candidate, whatever the base is: the digits at the end are those of the
number, since the prime in front of them is no digit, and everything in front of that prime is the
base (`baseOf_candidate`). Names that are made from different bases therefore differ, whichever
supplies they are drawn from, and names that are drawn one after the other differ in any case.
-/

namespace Redex.NameSupply

/-- The names that a supply holds, as a set. -/
def held (supply : NameSupply) : Finset Name := supply.used.toFinset

@[simp] theorem mem_held {supply : NameSupply} {x : Name} : x ∈ supply.held ↔ x ∈ supply.used :=
  List.mem_toFinset

theorem held_fresh (supply : NameSupply) (base : Name) :
    (supply.fresh base).2.held = insert (supply.fresh base).1 supply.held := by
  ext x
  rw [Finset.mem_insert, mem_held, mem_held, used_fresh, List.mem_append, List.mem_singleton,
    or_comm]

/-! ## The length of the search -/

/-- Candidates that are all held are no more than the names that are held. -/
theorem le_card_held {supply : NameSupply} {base : Name} {j : Nat}
    (passed : ∀ i < j, candidate base i ∈ supply.used) : j ≤ supply.held.card := by
  have inside : Set.MapsTo (candidate base) (Finset.range j) supply.held := by
    intro i below
    exact mem_held.2 (passed i (Finset.mem_range.1 below))
  have distinct : Set.InjOn (candidate base) (Finset.range j) := fun _ _ _ _ => candidate_injective
  have fewer := Finset.card_le_card_of_injOn (candidate base) inside distinct
  rwa [Finset.card_range] at fewer

theorem exists_index_le (supply : NameSupply) (base : Name) :
    ∃ j ≤ supply.held.card, (supply.fresh base).1 = candidate base j ∧
      candidate base j ∉ supply.held ∧ ∀ i < j, candidate base i ∈ supply.held := by
  obtain ⟨j, found, free, passed⟩ := supply.fresh_spec base
  refine ⟨j, le_card_held passed, found, fun held => free (mem_held.1 held), ?_⟩
  intro i below
  exact mem_held.2 (passed i below)

/-! ## The base of a name -/

/-- What stands in front of the last prime of a name, if only digits come behind it. -/
def baseOf (x : Name) : Name := String.ofList (x.toList.rdropWhile Char.isDigit).dropLast

theorem rdropWhile_digits (front digits : List Char) (all : ∀ c ∈ digits, c.isDigit = true) :
    (front ++ '\'' :: digits).rdropWhile Char.isDigit = front ++ ['\''] := by
  induction digits using List.reverseRecOn with
  | nil => exact List.rdropWhile_concat_neg _ front '\'' (by decide)
  | append_singleton digits c ih =>
    obtain ⟨others, last⟩ := List.forall_mem_append.1 all
    have digit : c.isDigit = true := last c (List.mem_singleton_self c)
    rw [← List.cons_append, ← List.append_assoc, List.rdropWhile_concat_pos _ _ c digit]
    exact ih others

theorem baseOf_candidate (base : Name) (k : Nat) : baseOf (candidate base k) = base := by
  have digits : ∀ c ∈ (if k = 0 then [] else Nat.toDigits 10 k), c.isDigit = true := by
    intro c inside
    split at inside
    · cases inside
    · exact Nat.isDigit_of_mem_toDigits (by decide) (by decide) inside
  rw [baseOf, toList_candidate, rdropWhile_digits _ _ digits, List.dropLast_concat,
    String.ofList_toList]

theorem baseOf_fresh (supply : NameSupply) (base : Name) :
    baseOf (supply.fresh base).1 = base := by
  obtain ⟨j, found, -, -⟩ := supply.fresh_spec base
  rw [found, baseOf_candidate]

/-! ## One name after the other -/

/-- Takes a fresh name for each of the bases in turn. -/
def freshAll (supply : NameSupply) : List Name → List Name × NameSupply
  | [] => ([], supply)
  | base :: bases =>
    let drawn := supply.fresh base
    let others := drawn.2.freshAll bases
    (drawn.1 :: others.1, others.2)

section FreshAll

variable (supply : NameSupply) (bases : List Name)

theorem map_baseOf_freshAll : (supply.freshAll bases).1.map baseOf = bases := by
  induction bases generalizing supply with
  | nil => rfl
  | cons base bases ih =>
    rw [freshAll, List.map_cons, baseOf_fresh, ih]

theorem held_freshAll :
    (supply.freshAll bases).2.held = supply.held ∪ (supply.freshAll bases).1.toFinset := by
  induction bases generalizing supply with
  | nil => simp [freshAll]
  | cons base bases ih =>
    simp only [freshAll, ih, held_fresh, List.toFinset_cons]
    rw [Finset.insert_union, Finset.union_insert]

/-- A name that is drawn later is none that is held already. -/
theorem not_mem_held_of_freshAll : ∀ x ∈ (supply.freshAll bases).1, x ∉ supply.held := by
  induction bases generalizing supply with
  | nil => nofun
  | cons base bases ih =>
    refine List.forall_mem_cons.2 ⟨fun held => supply.fresh_not_mem base (mem_held.1 held), ?_⟩
    intro x later held
    refine ih (supply.fresh base).2 x later ?_
    rw [held_fresh]
    exact Finset.mem_insert_of_mem held

theorem nodup_freshAll : (supply.freshAll bases).1.Nodup := by
  induction bases generalizing supply with
  | nil => exact List.nodup_nil
  | cons base bases ih =>
    refine List.nodup_cons.2 ⟨?_, ih _⟩
    intro again
    refine not_mem_held_of_freshAll _ bases _ again ?_
    rw [held_fresh]
    exact Finset.mem_insert_self _ _

end FreshAll

/-- The search for a fresh name looks at no more candidates than the supply holds names, and one: it
passes over candidates that are held, returns the first one that is not, and the supply holds that
name besides from then on. Names that are drawn in turn, from whatever bases, are none that were
held and differ from each other, and the base of each can be read off it. Even names from different
supplies coincide only if their bases do. -/
theorem fresh_finds_first_free (supply : NameSupply) (base : Name) :
    (∃ j ≤ supply.held.card, (supply.fresh base).1 = candidate base j ∧
        candidate base j ∉ supply.held ∧ ∀ i < j, candidate base i ∈ supply.held) ∧
      (supply.fresh base).2.held = insert (supply.fresh base).1 supply.held ∧
      (∀ bases, (supply.freshAll bases).1.Nodup ∧
        (∀ x ∈ (supply.freshAll bases).1, x ∉ supply.held) ∧
        (supply.freshAll bases).1.map baseOf = bases ∧
        (supply.freshAll bases).2.held = supply.held ∪ (supply.freshAll bases).1.toFinset) ∧
      ∀ supply' base', (supply.fresh base).1 = (fresh supply' base').1 → base = base' := by
  refine ⟨supply.exists_index_le base, supply.held_fresh base, ?_, ?_⟩
  · intro bases
    exact ⟨supply.nodup_freshAll bases, supply.not_mem_held_of_freshAll bases,
      supply.map_baseOf_freshAll bases, supply.held_freshAll bases⟩
  · intro supply' base' same
    have bases := congrArg baseOf same
    rwa [baseOf_fresh, baseOf_fresh] at bases

/-- Three names are passed over for `x`. The bases `x'` and `x'1` are made-up names themselves, and
the last one is empty. -/
theorem fresh_finds_first_free_primed :
    let supply : NameSupply := ⟨["x'", "x'1", "x'2", "'"]⟩
    (supply.fresh "x").1 = "x'3" ∧ candidate "x" 3 ∉ supply.held ∧
      (∀ i < 3, candidate "x" i ∈ supply.held) ∧
      (supply.freshAll ["x", "x'", "x", "x'1", "x'", ""]).1 =
        ["x'3", "x''", "x'4", "x'1'", "x''1", "'1"] ∧
      ["x'3", "x''", "x'4", "x'1'", "x''1", "'1"].Nodup ∧
      ∀ supply' base', (fresh supply' base').1 = "x'3" → base' = "x" := by
  intro supply
  have name : (supply.fresh "x").1 = "x'3" := by decide +kernel
  have names : (supply.freshAll ["x", "x'", "x", "x'1", "x'", ""]).1 =
      ["x'3", "x''", "x'4", "x'1'", "x''1", "'1"] := by decide +kernel
  obtain ⟨⟨j, -, found, free, passed⟩, -, drawn, apart⟩ := fresh_finds_first_free supply "x"
  have third : candidate "x" 3 = candidate "x" j := by
    rw [← found, name]
    decide +kernel
  cases candidate_injective third
  refine ⟨name, free, passed, names, names ▸ (drawn _).1, ?_⟩
  intro supply' base' same
  exact (apart supply' base' (name.trans same.symm)).symm

end Redex.NameSupply
