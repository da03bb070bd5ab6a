import Mathlib.Tactic
import Mathlib.Algebra.BigOperators.Group.Finset.Basic
import Mathlib.Algebra.Order.BigOperators.Group.Finset

/-!
# Tallies of finitely many entries

A store that maps keys to optional entries, finitely many of them present, and
the total weight of those entries.  Writing one entry changes the total by the
difference of two weights, no entry weighs more than the total, and renaming
the keys changes nothing.
-/

namespace FiniteTallies

variable {α β γ : Type}

/-- An absent entry weighs nothing. -/
def weigh (weight : β → ℕ) (entry : Option β) : ℕ :=
  (entry.map weight).getD 0

@[simp] theorem weigh_none (weight : β → ℕ) : weigh weight none = 0 := rfl

@[simp] theorem weigh_some (weight : β → ℕ) (entry : β) :
    weigh weight (some entry) = weight entry := rfl

/-- Writing one of the entries changes their sum by the difference of two
weights. -/
theorem sum_weigh_update [DecidableEq α] (entries : α → Option β)
    (weight : β → ℕ) {keys : Finset α} {key : α} (hkey : key ∈ keys)
    (entry : β) :
    ∑ other ∈ keys, weigh weight
          (Function.update entries key (some entry) other) +
        weigh weight (entries key) =
      ∑ other ∈ keys, weigh weight (entries other) + weight entry := by
  have hrest :
      ∑ other ∈ keys.erase key,
          weigh weight (Function.update entries key (some entry) other) =
        ∑ other ∈ keys.erase key, weigh weight (entries other) := by
    apply Finset.sum_congr rfl
    intro other hother
    rw [Function.update_of_ne (Finset.ne_of_mem_erase hother)]
  rw [← Finset.add_sum_erase _ _ hkey, ← Finset.add_sum_erase _ _ hkey,
    hrest, Function.update_self, weigh_some]
  omega

/-- Taking from one of finitely many amounts takes as much from their sum. -/
theorem sum_of_debit [DecidableEq α] {amounts amounts' : α → ℕ}
    {keys : Finset α} {source : α} {taken : ℕ} (hsource : source ∈ keys)
    (hdebit : amounts' source + taken = amounts source)
    (hothers : ∀ key, key ≠ source → amounts' key = amounts key) :
    ∑ key ∈ keys, amounts' key + taken = ∑ key ∈ keys, amounts key := by
  have hrest : ∑ key ∈ keys.erase source, amounts' key =
      ∑ key ∈ keys.erase source, amounts key :=
    Finset.sum_congr rfl fun key hkey =>
      hothers key (Finset.ne_of_mem_erase hkey)
  rw [← Finset.add_sum_erase _ _ hsource, ← Finset.add_sum_erase _ _ hsource,
    hrest]
  omega

/-- Moving from one to another leaves the sum as it is. -/
theorem sum_of_move [DecidableEq α] {amounts amounts' : α → ℕ}
    {keys : Finset α} {source target : α} {moved : ℕ}
    (hsource : source ∈ keys) (htarget : target ∈ keys)
    (hne : source ≠ target)
    (hdebit : amounts' source + moved = amounts source)
    (hcredit : amounts' target = amounts target + moved)
    (hothers : ∀ key, key ≠ source → key ≠ target →
      amounts' key = amounts key) :
    ∑ key ∈ keys, amounts' key = ∑ key ∈ keys, amounts key := by
  obtain ⟨between, hfirst, hrest⟩ : ∃ between : α → ℕ,
      between source = amounts' source ∧
        ∀ key, key ≠ source → between key = amounts key :=
    ⟨Function.update amounts source (amounts' source),
      Function.update_self _ _ _, fun key hkey =>
      Function.update_of_ne hkey _ _⟩
  have htaken : ∑ key ∈ keys, between key + moved =
      ∑ key ∈ keys, amounts key :=
    sum_of_debit hsource (by rw [hfirst, hdebit]) hrest
  have hgiven : ∑ key ∈ keys, between key + moved =
      ∑ key ∈ keys, amounts' key := by
    apply sum_of_debit htarget
    · rw [hcredit, hrest target hne.symm]
    · intro key hkey
      by_cases hsame : key = source
      · rw [hsame, hfirst]
      · rw [hothers key hsame hkey, hrest key hsame]
  exact hgiven.symm.trans htaken

/-- Exactly the entries under `keys` are present, and they weigh `total`. -/
structure Tally (entries : α → Option β) (weight : β → ℕ) (keys : Finset α)
    (total : ℕ) : Prop where
  present : ∀ key, key ∈ keys ↔ entries key ≠ none
  sum_eq : ∑ key ∈ keys, weigh weight (entries key) = total

namespace Tally

variable {entries : α → Option β} {weight : β → ℕ} {keys : Finset α}
  {total : ℕ}

theorem empty (weight : β → ℕ) (h : ∀ key, entries key = none) :
    Tally entries weight ∅ 0 where
  present key := by simp [h key]
  sum_eq := Finset.sum_empty

theorem absent (h : Tally entries weight keys total) {key : α}
    (hkey : key ∉ keys) : entries key = none := by
  by_contra hpresent
  exact hkey ((h.present key).mpr hpresent)

theorem weigh_le (h : Tally entries weight keys total) (key : α) :
    weigh weight (entries key) ≤ total := by
  by_cases hkey : key ∈ keys
  · rw [← h.sum_eq]
    exact Finset.single_le_sum
      (f := fun key => weigh weight (entries key))
      (fun _ _ => Nat.zero_le _) hkey
  · rw [h.absent hkey]
    exact Nat.zero_le _

/-- Writing an entry replaces its old weight by the new one. -/
theorem update [DecidableEq α] (h : Tally entries weight keys total)
    (key : α) (entry : β) {total' : ℕ}
    (htotal : total' + weigh weight (entries key) = total + weight entry) :
    Tally (Function.update entries key (some entry)) weight
      (insert key keys) total' where
  present other := by
    by_cases heq : other = key
    · subst heq
      simp
    · simp [heq, h.present other]
  sum_eq := by
    have hmem : key ∈ insert key keys := Finset.mem_insert_self key keys
    have hold :
        ∑ other ∈ insert key keys, weigh weight (entries other) = total := by
      rw [← h.sum_eq]
      apply Finset.sum_insert_of_eq_zero_if_notMem
      intro hkey
      rw [h.absent hkey, weigh_none]
    have hrest :
        ∑ other ∈ (insert key keys).erase key,
            weigh weight (Function.update entries key (some entry) other) =
          ∑ other ∈ (insert key keys).erase key,
            weigh weight (entries other) := by
      apply Finset.sum_congr rfl
      intro other hother
      rw [Function.update_of_ne (Finset.ne_of_mem_erase hother)]
    rw [← Finset.add_sum_erase _ _ hmem] at hold
    rw [← Finset.add_sum_erase _ _ hmem, hrest, Function.update_self,
      weigh_some]
    omega

/-- The same entries under other names. -/
theorem rename (h : Tally entries weight keys total) (name : α ↪ γ)
    {entries' : γ → Option β}
    (hsame : ∀ key, entries' (name key) = entries key)
    (honly : ∀ key', entries' key' ≠ none → ∃ key, name key = key') :
    Tally entries' weight (keys.map name) total where
  present key' := by
    rw [Finset.mem_map]
    constructor
    · rintro ⟨key, hkey, rfl⟩
      rw [hsame]
      exact (h.present key).mp hkey
    · intro hpresent
      obtain ⟨key, rfl⟩ := honly key' hpresent
      rw [hsame] at hpresent
      exact ⟨key, (h.present key).mpr hpresent, rfl⟩
  sum_eq := by
    rw [Finset.sum_map, ← h.sum_eq]
    exact Finset.sum_congr rfl fun key _ => by rw [hsame]

end Tally

end FiniteTallies
