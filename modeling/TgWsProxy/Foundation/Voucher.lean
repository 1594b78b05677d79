import Mathlib.Data.List.Forall2
import TgWsProxy.Foundation.Reservation

/-!
# Vouchers

Grants are numbered in the order in which they are made. A voucher is such a number in
somebody's hands; it entitles its holder to something under the key of the grant, and passes
from one holder to the next until it is spent. What was spent under a key is then paid for by
the grants of that key, one each.
-/

namespace Foundation.Voucher

open Foundation.Reservation

universe uKey uItem

variable {Key : Type uKey} {grants : List Key}

/-! ## In somebody's hands -/

/-- The voucher is the number of a grant of the key that is claimed, or there is neither. -/
def Backs (grants : List Key) : Option Nat → Option Key → Prop :=
  Option.Rel fun number key => grants[number]? = some key

/-- The vouchers in the hands of some holders, and what each of these claims. -/
abbrev Held (grants : List Key) : List (Option Nat) → List (Option Key) → Prop :=
  List.Forall₂ (Backs grants)

theorem Backs.of_claim {voucher : Option Nat} {key : Key}
    (hbacks : Backs grants voucher (some key)) :
    ∃ number, voucher = some number ∧ grants[number]? = some key := by
  cases hbacks with
  | some hnumber => exact ⟨_, rfl, hnumber⟩

theorem Backs.of_none {voucher : Option Nat} (hbacks : Backs grants voucher none) :
    voucher = none := by
  cases hbacks
  rfl

theorem Backs.grow {voucher : Option Nat} {claim : Option Key} (hbacks : Backs grants voucher claim)
    (key : Key) : Backs (grants ++ [key]) voucher claim := by
  cases hbacks with
  | some hnumber =>
      have hlt := (List.getElem?_eq_some_iff.mp hnumber).1
      refine .some ?_
      rw [List.getElem?_append_left hlt]
      exact hnumber
  | none => exact .none

theorem Backs.latest (grants : List Key) (key : Key) :
    Backs (grants ++ [key]) (some grants.length) (some key) :=
  .some List.getElem?_concat_length

namespace Held

variable {vouchers : List (Option Nat)} {claims : List (Option Key)}

theorem grow (hheld : Held grants vouchers claims) (key : Key) :
    Held (grants ++ [key]) vouchers claims :=
  hheld.imp fun _ _ hbacks => hbacks.grow key

theorem set (hheld : Held grants vouchers claims) (index : Nat) {voucher : Option Nat}
    {claim : Option Key} (hbacks : Backs grants voucher claim) :
    Held grants (vouchers.set index voucher) (claims.set index claim) := by
  induction hheld generalizing index with
  | nil => exact .nil
  | cons hhead htail ih =>
      cases index with
      | zero => exact .cons hbacks htail
      | succ index => exact .cons hhead (ih index)

theorem eraseIdx (hheld : Held grants vouchers claims) (index : Nat) :
    Held grants (vouchers.eraseIdx index) (claims.eraseIdx index) := by
  induction hheld generalizing index with
  | nil => exact .nil
  | cons hhead htail ih =>
      cases index with
      | zero => exact htail
      | succ index => exact .cons hhead (ih index)

theorem concat (hheld : Held grants vouchers claims) {voucher : Option Nat} {claim : Option Key}
    (hbacks : Backs grants voucher claim) :
    Held grants (vouchers ++ [voucher]) (claims ++ [claim]) :=
  List.rel_append hheld (.cons hbacks .nil)

theorem voucher_of_claim (hheld : Held grants vouchers claims) {index : Nat} {claim : Option Key}
    (hclaim : claims[index]? = some claim) :
    ∃ voucher, vouchers[index]? = some voucher ∧ Backs grants voucher claim := by
  induction hheld generalizing index with
  | nil => cases hclaim
  | cons hhead _ ih =>
      cases index with
      | zero =>
          cases hclaim
          exact ⟨_, rfl, hhead⟩
      | succ index => exact ih hclaim

end Held

/-! ## How often a number is about -/

def tally (number : Nat) (vouchers : List (Option Nat)) : Nat :=
  (vouchers.map fun voucher => if voucher = some number then 1 else 0).sum

section Tally

variable {vouchers : List (Option Nat)} {index : Nat} {voucher : Option Nat}

theorem tally_set (number : Nat) (hvoucher : vouchers[index]? = some voucher)
    (next : Option Nat) :
    tally number (vouchers.set index next) + (if voucher = some number then 1 else 0) =
      tally number vouchers + if next = some number then 1 else 0 :=
  sum_set _ hvoucher next

theorem tally_eraseIdx (number : Nat) (hvoucher : vouchers[index]? = some voucher) :
    tally number (vouchers.eraseIdx index) + (if voucher = some number then 1 else 0) =
      tally number vouchers :=
  sum_eraseIdx _ hvoucher

theorem tally_concat (number : Nat) (vouchers : List (Option Nat)) (voucher : Option Nat) :
    tally number (vouchers ++ [voucher]) =
      tally number vouchers + if voucher = some number then 1 else 0 := by
  simp [tally]

/-- The number of the next grant is nowhere about. -/
theorem Held.tally_fresh {claims : List (Option Key)} (hheld : Held grants vouchers claims) :
    tally grants.length vouchers = 0 := by
  induction hheld with
  | nil => rfl
  | @cons voucher claim _ _ hhead _ ih =>
      have hother : voucher ≠ some grants.length := by
        rintro rfl
        cases hhead with
        | some hnumber => exact Nat.lt_irrefl _ (List.getElem?_eq_some_iff.mp hnumber).1
      rw [tally] at ih ⊢
      rw [List.map_cons, List.sum_cons, ih, if_neg hother]

end Tally

/-! ## Spent -/

section Spent

variable {Item : Type uItem} {keyOf : Item → Key} {numbers : List Nat} {items : List Item}

/-- The items were bought with the grants of these numbers, each under its own key. -/
abbrev Spent (keyOf : Item → Key) (grants : List Key) : List Nat → List Item → Prop :=
  List.Forall₂ fun number item => grants[number]? = some (keyOf item)

theorem Spent.grow (hspent : Spent keyOf grants numbers items) (key : Key) :
    Spent keyOf (grants ++ [key]) numbers items := by
  refine hspent.imp fun number item hnumber => ?_
  rw [List.getElem?_append_left (List.getElem?_eq_some_iff.mp hnumber).1]
  exact hnumber

theorem Spent.count_fresh (hspent : Spent keyOf grants numbers items) :
    numbers.count grants.length = 0 := by
  induction hspent with
  | nil => rfl
  | @cons number item _ _ hhead _ ih =>
      have hlt := (List.getElem?_eq_some_iff.mp hhead).1
      rw [List.count_cons_of_ne (Nat.ne_of_lt hlt), ih]

variable [DecidableEq Key]

theorem countP_range_getElem? (grants : List Key) (key : Key) :
    (List.range grants.length).countP (fun number => grants[number]? = some key) =
      grants.countP fun grant => grant = key := by
  induction grants using List.reverseRecOn with
  | nil => rfl
  | append_singleton grants last ih =>
      have hsame : ∀ number ∈ List.range grants.length,
          ((grants ++ [last])[number]? = some key ↔ grants[number]? = some key) := by
        intro number hnumber
        rw [List.getElem?_append_left (List.mem_range.mp hnumber)]
      rw [List.length_append, List.length_singleton, List.range_succ, List.countP_append,
        List.countP_append, ← ih]
      congr 1
      · exact List.countP_congr fun number hnumber => by
          simpa using hsame number hnumber
      · simp [List.countP_singleton]

/-- What was spent under a key with different vouchers is covered by its grants. -/
theorem Spent.countP_le (hspent : Spent keyOf grants numbers items) (hnodup : numbers.Nodup)
    (key : Key) :
    items.countP (fun item => keyOf item = key) ≤ grants.countP fun grant => grant = key := by
  have hitems : items.countP (fun item => keyOf item = key) =
      numbers.countP fun number => grants[number]? = some key := by
    clear hnodup
    induction hspent with
    | nil => rfl
    | cons hhead _ ih => simp [List.countP_cons, hhead, ih]
  have hsubset : ∀ number ∈ numbers.filter (fun number => grants[number]? = some key),
      number ∈ (List.range grants.length).filter fun number => grants[number]? = some key := by
    intro number hnumber
    have hkey := List.of_mem_filter hnumber
    refine List.mem_filter.mpr ⟨List.mem_range.mpr ?_, hkey⟩
    exact (List.getElem?_eq_some_iff.mp (of_decide_eq_true hkey)).1
  rw [hitems, ← countP_range_getElem?, List.countP_eq_length_filter, List.countP_eq_length_filter]
  exact ((hnodup.filter _).subperm hsubset).length_le

end Spent

end Foundation.Voucher
