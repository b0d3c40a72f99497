import CopyTrade.Foundation.Words
import Mathlib.Data.List.Forall2

/-!
# Prefix codes

A relation `writes a p` says that a value is written as a list.  It is a prefix code when two values
whose lists, each with something appended, are one list are the same value, and the same thing was
appended.  "The same" is a relation of its own, since a writer may not see all of a value.
-/

namespace CopyTrade.Foundation

variable {α β ε : Type}

def PrefixCode (writes : α → List β → Prop) (same : α → α → Prop) : Prop :=
  ∀ ⦃a b p q x y⦄, writes a p → writes b q → p ++ x = q ++ y → same a b ∧ x = y

variable {same : α → α → Prop} {writes : α → List β → Prop}

theorem PrefixCode.comap {γ : Type} {writes' : γ → List β → Prop} {same' : γ → γ → Prop}
    (h : PrefixCode writes same) (f : γ → α) (hwrites : ∀ c p, writes' c p → writes (f c) p)
    (hsame : ∀ c d, same (f c) (f d) → same' c d) : PrefixCode writes' same' := by
  intro c d p q x y hc hd heq
  obtain ⟨hcd, hrest⟩ := h (hwrites c p hc) (hwrites d q hd) heq
  exact ⟨hsame c d hcd, hrest⟩

theorem PrefixCode.pair {γ : Type} {writes' : γ → List β → Prop} {same' : γ → γ → Prop}
    (h : PrefixCode writes same) (h' : PrefixCode writes' same') :
    PrefixCode (fun (c : α × γ) p => ∃ q r, writes c.1 q ∧ writes' c.2 r ∧ p = q ++ r)
      fun c d => same c.1 d.1 ∧ same' c.2 d.2 := by
  rintro c d _ _ x y ⟨q, r, hq, hr, rfl⟩ ⟨q', r', hq', hr', rfl⟩ heq
  rw [List.append_assoc, List.append_assoc] at heq
  obtain ⟨hfirst, hbehind⟩ := h hq hq' heq
  obtain ⟨hsecond, hrest⟩ := h' hr hr' hbehind
  exact ⟨⟨hfirst, hsecond⟩, hrest⟩

theorem prefixCode_of_length {n : ℕ} (hlength : ∀ a p, writes a p → p.length = n)
    (hsame : ∀ a b p, writes a p → writes b p → same a b) : PrefixCode writes same := by
  intro a b p q x y ha hb h
  obtain ⟨rfl, hrest⟩ := List.append_inj h ((hlength a p ha).trans (hlength b q hb).symm)
  exact ⟨hsame a b p ha hb, hrest⟩

/-- The values of a list, written one after the other. -/
inductive WritesAll (writes : α → List β → Prop) : List α → List β → Prop
  | nil : WritesAll writes [] []
  | cons {a : α} {as : List α} {p q : List β} (first : writes a p) (rest : WritesAll writes as q) :
      WritesAll writes (a :: as) (p ++ q)

theorem WritesAll.imp {writes' : α → List β → Prop} (himp : ∀ a p, writes a p → writes' a p)
    {as : List α} {p : List β} (h : WritesAll writes as p) : WritesAll writes' as p := by
  induction h with
  | nil => exact .nil
  | cons first _ ih => exact .cons (himp _ _ first) ih

/-- Lists of one length are written as a prefix code when their values are. -/
theorem PrefixCode.all {as bs : List α}
    (h : ∀ a ∈ as, ∀ ⦃b p q x y⦄, writes a p → writes b q → p ++ x = q ++ y → same a b ∧ x = y)
    {p q x y : List β} (hlength : as.length = bs.length) (ha : WritesAll writes as p)
    (hb : WritesAll writes bs q) (heq : p ++ x = q ++ y) : List.Forall₂ same as bs ∧ x = y := by
  induction ha generalizing bs q with
  | nil =>
    cases hb with
    | nil => exact ⟨.nil, heq⟩
    | cons => cases hlength
  | @cons a as p p' hfirst hrest ih =>
    cases hb with
    | nil => cases hlength
    | @cons b bs q q' hfirst' hrest' =>
      rw [List.append_assoc, List.append_assoc] at heq
      obtain ⟨hsame, hbehind⟩ := h a List.mem_cons_self hfirst hfirst' heq
      obtain ⟨hall, hxy⟩ := ih (fun a' ha' => h a' (List.mem_cons_of_mem a ha'))
        (Nat.succ.inj hlength) hrest' hbehind
      exact ⟨.cons hsame hall, hxy⟩

theorem PrefixCode.counted {count : ℕ → List β → Prop} (hcount : PrefixCode count Eq)
    (h : PrefixCode writes same) :
    PrefixCode (fun as p => ∃ c q, count as.length c ∧ WritesAll writes as q ∧ p = c ++ q)
      (List.Forall₂ same) := by
  rintro as bs _ _ x y ⟨c, q, hc, hq, rfl⟩ ⟨c', q', hc', hq', rfl⟩ heq
  rw [List.append_assoc, List.append_assoc] at heq
  obtain ⟨hlength, hbehind⟩ := hcount hc hc' heq
  exact PrefixCode.all (fun _ _ => @h _) hlength hq hq' hbehind

theorem prefixCode_bigEndian (n : ℕ) :
    PrefixCode (fun word p => word < 256 ^ n ∧ p = bigEndian n word) Eq := by
  apply prefixCode_of_length (n := n)
  · rintro word p ⟨-, rfl⟩
    exact length_bigEndian n word
  · rintro a b p ⟨ha, rfl⟩ ⟨hb, h⟩
    exact bigEndian_injOn ha hb h

theorem prefixCode_text (n : ℕ) :
    PrefixCode (fun text p => (textBytes text).length < 256 ^ n ∧
      p = bigEndian n (textBytes text).length ++ textBytes text) Eq := by
  rintro a b p q x y ⟨ha, rfl⟩ ⟨hb, rfl⟩ h
  rw [List.append_assoc, List.append_assoc] at h
  obtain ⟨hlength, hbehind⟩ := prefixCode_bigEndian n ⟨ha, rfl⟩ ⟨hb, rfl⟩ h
  obtain ⟨hbytes, hrest⟩ := List.append_inj hbehind hlength
  exact ⟨textBytes_injective hbytes, hrest⟩

end CopyTrade.Foundation
