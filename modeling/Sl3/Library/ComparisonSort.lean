import Sl3.Library.StrictWeak
import Mathlib.Data.Fin.Tuple.Sort
import Mathlib.Data.List.FinRange
import Mathlib.Data.PEquiv

/-! Sorts that look at their elements through comparisons only. A comparison may throw, and
what the slots hold at that moment is what the sort leaves. -/
namespace Sl3.Library.ComparisonSort
open StrictWeak
variable {n : Nat} {ε α : Type}

/-- A sort of `n` elements: which two it compares next, what each slot holds meanwhile, and how it goes on
after either answer; in the end, which element is in which slot. A slot holds nothing while its element is
elsewhere, and no two hold the same one. -/
inductive Comparisons (n : Nat) where
  | done (order : Equiv.Perm (Fin n))
  | compare (i j : Fin n) (held : Fin n ≃. Fin n) (yes no : Comparisons n)

namespace Comparisons

def order (less : Fin n → Fin n → Bool) : Comparisons n → Equiv.Perm (Fin n)
  | done order => order
  | compare i j _ yes no => if less i j then yes.order less else no.order less

/-- What a slot shows: its element, or what a move leaves. -/
def slots (moved : α) (elements : Fin n → α) (held : Fin n ≃. Fin n) : List α :=
  List.ofFn fun slot => (held slot).elim moved elements

def run (less : α → α → Except ε Bool) (moved : α) (elements : Fin n → α) :
    Comparisons n → EStateM.Result ε (List α) Unit
  | done order => .ok () (List.ofFn (elements ∘ order))
  | compare i j held yes no =>
    match less (elements i) (elements j) with
    | .error e => .error e (slots moved elements held)
    | .ok true => yes.run less moved elements
    | .ok false => no.run less moved elements

/-- The contract of a sort, for comparators that are strict weak orderings. -/
def Sorts (sort : Comparisons n) : Prop :=
  ∀ less : Fin n → Fin n → Bool, StrictWeakOn Set.univ less →
    ∀ i j, i < j → less (sort.order less j) (sort.order less i) = false

variable {sort : Comparisons n} {less : α → α → Except ε Bool} {moved : α} {elements : Fin n → α}

theorem run_ok {answers : Fin n → Fin n → Bool} (defined : ∀ i j, less (elements i) (elements j) = .ok (answers i j)) :
    sort.run less moved elements = .ok () (List.ofFn (elements ∘ sort.order answers)) := by
  induction sort with
  | done order => rfl
  | compare i j held yes no ihYes ihNo =>
    rw [run,defined,order]
    cases answers i j with
    | true => exact ihYes
    | false => exact ihNo

/-- A sort returns with the elements in some order, or is left with the slots as they are held. -/
theorem run_cases : (∃ order : Equiv.Perm (Fin n), sort.run less moved elements = .ok () (List.ofFn (elements ∘ order))) ∨
    ∃ e held, sort.run less moved elements = .error e (slots moved elements held) := by
  induction sort with
  | done order => exact .inl ⟨order,rfl⟩
  | compare i j held yes no ihYes ihNo =>
    rw [run]
    cases less (elements i) (elements j) with
    | error e => exact .inr ⟨e,held,rfl⟩
    | ok below =>
      cases below with
      | true => exact ihYes
      | false => exact ihNo

theorem ordered_perm (elements : List α) (order : Equiv.Perm (Fin elements.length)) :
    (List.ofFn (elements.get ∘ order)).Perm elements := by
  apply (Equiv.Perm.ofFn_comp_perm _ _).trans
  rw [List.ofFn_get]

theorem slots_length (held : Fin n ≃. Fin n) : (slots moved elements held).length = n := List.length_ofFn

theorem shown_sublist {kept : α → Bool} (dropped : kept moved = false) (held : Fin n ≃. Fin n) (slots : List (Fin n)) :
    ((slots.map fun slot => (held slot).elim moved elements).filter kept).Sublist ((slots.filterMap held).map elements) := by
  induction slots with
  | nil => exact .slnil
  | cons slot slots ih =>
    cases found : held slot with
    | none => simpa [found,dropped] using ih
    | some i =>
      cases shown : kept (elements i) with
      | true => simpa [found,shown] using ih.cons_cons (elements i)
      | false => simpa [found,shown] using ih.cons (elements i)

/-- No two slots show the same element: those that show more than what a move leaves show elements that were there,
none of them more often than it was there. -/
theorem slots_subperm {kept : α → Bool} (dropped : kept moved = false) (held : Fin n ≃. Fin n) :
    ((slots moved elements held).filter kept).Subperm (List.ofFn elements) := by
  rw [slots,List.ofFn_eq_map,List.ofFn_eq_map]
  have distinct : ((List.finRange n).filterMap held).Nodup :=
    (List.nodup_finRange n).filterMap fun _ _ _ here there => held.inj here there
  obtain ⟨shown,permuted,sub⟩ := distinct.subperm fun i _ => List.mem_finRange i
  exact (shown_sublist dropped held (List.finRange n)).subperm.trans
    ⟨shown.map elements,permuted.map elements,sub.map elements⟩

/-- A sort of two or more elements that compares none cannot know their order. -/
theorem Sorts.compares (sorts : sort.Sorts) (two : 1 < n) : ∃ i j held yes no, sort = .compare i j held yes no := by
  cases sort with
  | compare i j held yes no => exact ⟨i,j,held,yes,no,rfl⟩
  | done order =>
    -- an order in which the element of the second slot is the least
    let key (i : Fin n) : Nat := if i = order ⟨1,two⟩ then 0 else 1
    have weak : StrictWeakOn Set.univ fun i j => decide (key i < key j) :=
      .of_key fun _ _ _ _ => decide_eq_true_iff
    have other : order ⟨0,by omega⟩ ≠ order ⟨1,two⟩ := by
      intro same
      have slot := order.injective same
      simp at slot
    have sorted := sorts _ weak ⟨0,by omega⟩ ⟨1,two⟩ (by simp)
    simp [Comparisons.order,key,other] at sorted

/-- How many elements come before one. -/
def rank (table : Fin n → Fin n → Bool) (i : Fin n) : Nat := (Finset.univ.filter fun j => table j i = true).card

theorem rank_lt {table : Fin n → Fin n → Bool} (weak : StrictWeakOn Set.univ table) {i j : Fin n} (below : table i j = true) :
    rank table i < rank table j := by
  apply Finset.card_lt_card
  rw [Finset.ssubset_iff_of_subset]
  · exact ⟨i,by simp [below],by simp [weak.irrefl i trivial]⟩
  · intro k member
    have before : table k i = true := by simpa using member
    simpa using weak.trans k trivial i trivial j trivial before below

theorem sorted_by_rank {table : Fin n → Fin n → Bool} (weak : StrictWeakOn Set.univ table) {i j : Fin n} (before : i < j) :
    table (Tuple.sort (rank table) j) (Tuple.sort (rank table) i) = false := by
  have ordered := Tuple.monotone_sort (rank table) before.le
  by_contra less
  have more := rank_lt weak (by simpa using less)
  exact absurd more ordered.not_gt

/-- Asks one pair after the other while the slots stay as they are, and puts the answers in a table. -/
def ask (held : Fin n ≃. Fin n) : List (Fin n × Fin n) → (Fin n → Fin n → Bool) → Comparisons n
  | [],table => .done (Tuple.sort (rank table))
  | pair::pairs,table =>
    .compare pair.1 pair.2 held (ask held pairs fun i j => table i j || (i,j) = pair) (ask held pairs table)

theorem ask_order (held : Fin n ≃. Fin n) (pairs : List (Fin n × Fin n)) (table less : Fin n → Fin n → Bool) :
    (ask held pairs table).order less =
      Tuple.sort (rank fun i j => table i j || ((i,j) ∈ pairs && less i j)) := by
  induction pairs generalizing table with
  | nil => simp [ask,order]
  | cons pair pairs ih =>
    rw [ask,order,ih,ih]
    cases answer : less pair.1 pair.2 with
    | true =>
      rw [if_pos rfl]
      congr 2
      ext i j
      by_cases same : (i,j) = pair
      · subst same
        simp [answer]
      · simp [same]
    | false =>
      rw [if_neg Bool.false_ne_true]
      congr 2
      ext i j
      by_cases same : (i,j) = pair
      · subst same
        simp [answer]
      · simp [same]

def pairs (n : Nat) : List (Fin n × Fin n) := (List.finRange n ×ˢ List.finRange n).filter fun pair => pair.1 ≠ pair.2

theorem ask_sorts (held : Fin n ≃. Fin n) : (ask held (pairs n) fun _ _ => false).Sorts := by
  intro less weak i j before
  have table : (fun i j => false || ((i,j) ∈ pairs n && less i j)) = less := by
    ext i j
    by_cases same : i = j
    · subst same
      simp [weak.irrefl i trivial]
    · simp [pairs,same]
  rw [ask_order,table]
  exact sorted_by_rank weak before

/-- Whatever throws, the slots are as they were held. -/
theorem ask_run (held : Fin n ≃. Fin n) (pairs : List (Fin n × Fin n)) (table : Fin n → Fin n → Bool) :
    (∃ sorted, (ask held pairs table).run less moved elements = .ok () sorted) ∨
      ∃ e, (ask held pairs table).run less moved elements = .error e (slots moved elements held) := by
  induction pairs generalizing table with
  | nil => exact .inl ⟨_,rfl⟩
  | cons pair pairs ih =>
    rw [ask,run]
    cases less (elements pair.1) (elements pair.2) with
    | error e => exact .inr ⟨e,rfl⟩
    | ok answer =>
      cases answer with
      | true => exact ih _
      | false => exact ih _

end Comparisons

/-- A sort for each number of elements that meets the contract. -/
structure Algorithm where
  comparisons (n : Nat) : Comparisons n
  sorts (n : Nat) : (comparisons n).Sorts

/-- The sort that keeps one element outside while it compares any two. -/
def Algorithm.holding (slot : Nat) : Algorithm where
  comparisons n := .ask (PEquiv.ofSet {i : Fin n | (i : Nat) ≠ slot}) (Comparisons.pairs n) fun _ _ => false
  sorts _ := Comparisons.ask_sorts _

theorem slots_holding {slot : Nat} (moved : α) (elements : List α) :
    Comparisons.slots moved elements.get (PEquiv.ofSet {i : Fin elements.length | (i : Nat) ≠ slot}) =
      elements.set slot moved := by
  apply List.ext_getElem
  · simp [Comparisons.slots]
  · intro i left right
    by_cases same : i = slot
    · simp [Comparisons.slots,PEquiv.ofSet,same]
    · simp [Comparisons.slots,PEquiv.ofSet,same,Ne.symm same]

end Sl3.Library.ComparisonSort
