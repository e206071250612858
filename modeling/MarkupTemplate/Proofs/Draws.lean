import MarkupTemplate.Sample.Draw
import Mathlib.Data.List.GetD

/-!
# What a draw ensures

A draw ensures a property if it asks only for numbers below positive bounds, so that it can always go on,
and if everything it can come to has the property. A draw made of others is followed along its parts: each
has one rule, and the rules speak of all numbers within the bounds at once. A source of random numbers
gives one such sequence of numbers, so what it leads to is among what the draw reaches.
-/

namespace MarkupTemplate

theorem RandomSource.number_lt {bound : Nat} (source : RandomSource) (h : 0 < bound) :
    source.number bound < bound :=
  Nat.mod_lt _ h

namespace Draw

variable {α β : Type} {P : α → Prop} {x : Draw α} {a : α}

inductive Ensures (P : α → Prop) : Draw α → Prop
  | done {a : α} (h : P a) : Ensures P (done a)
  | draw {bound : Nat} {next : Nat → Draw α} (hpos : 0 < bound)
      (hnext : ∀ i, i < bound → Ensures P (next i)) : Ensures P (draw bound next)

theorem ensures_pure (h : P a) : (pure a : Draw α).Ensures P :=
  .done h

namespace Ensures

theorem bind {Q : β → Prop} {f : α → Draw β} (h : x.Ensures P) (hf : ∀ a, P a → (f a).Ensures Q) :
    (x >>= f).Ensures Q := by
  induction h with
  | done ha => exact hf _ ha
  | draw hpos _ ih => exact .draw hpos ih

theorem mono {Q : α → Prop} (h : x.Ensures P) (hPQ : ∀ a, P a → Q a) : x.Ensures Q := by
  induction h with
  | done ha => exact .done (hPQ _ ha)
  | draw hpos _ ih => exact .draw hpos ih

theorem of_reaches (h : x.Ensures P) (hx : x.Reaches a) : P a := by
  induction hx with
  | done a =>
    cases h with
    | done ha => exact ha
  | draw hi _ ih =>
    cases h with
    | draw _ hnext => exact ih (hnext _ hi)

theorem exists_reaches (h : x.Ensures P) : ∃ a, x.Reaches a := by
  induction h with
  | @done a _ => exact ⟨a, .done a⟩
  | draw hpos _ ih =>
    obtain ⟨a, ha⟩ := ih 0 hpos
    exact ⟨a, .draw hpos ha⟩

theorem reaches_run (h : x.Ensures P) (source : RandomSource) : x.Reaches (x.run source).1 := by
  induction h generalizing source with
  | done _ => exact .done _
  | draw hpos _ ih =>
    have hnumber := RandomSource.number_lt source.next hpos
    have hnext := ih _ hnumber source.next
    rw [run]
    exact .draw hnumber hnext

theorem times (h : x.Ensures P) (count : Nat) :
    (times count x).Ensures fun results => results.length = count ∧ ∀ a ∈ results, P a := by
  induction count with
  | zero => exact .done (by simp)
  | succ count ih =>
    refine h.bind fun a ha => ih.bind fun rest hrest => ensures_pure ⟨?_, ?_⟩
    · rw [List.length_cons, hrest.1]
    · exact List.forall_mem_cons.2 ⟨ha, hrest.2⟩

end Ensures

section Numbers

variable {bound low high : Nat} {items : List Text} {R : Text → Prop}

theorem ensures_number (h : 0 < bound) : (number bound).Ensures (· < bound) :=
  .draw h fun _ hi => .done hi

theorem ensures_between (h : low ≤ high) : (between low high).Ensures (· ≤ high) := by
  refine (ensures_number (Nat.succ_pos _)).bind fun i hi => ensures_pure ?_
  omega

theorem ensures_chance (perMille : Nat) : (chance perMille).Ensures fun _ => True :=
  (ensures_number (by decide)).bind fun _ _ => ensures_pure trivial

theorem ensures_pick (hitems : items ≠ []) (h : ∀ s ∈ items, R s) : (pick items).Ensures R := by
  refine (ensures_number (List.length_pos_iff.2 hitems)).bind fun i hi => ensures_pure ?_
  rw [List.getD_eq_getElem _ _ hi]
  exact h _ (List.getElem_mem hi)

end Numbers

theorem reaches_pure_iff {b : α} : (pure a : Draw α).Reaches b ↔ b = a := by
  constructor
  · intro h
    cases h
    rfl
  · rintro rfl
    exact .done b

theorem reaches_bind_iff {f : α → Draw β} {b : β} :
    (x >>= f).Reaches b ↔ ∃ a, x.Reaches a ∧ (f a).Reaches b := by
  constructor
  · intro h
    induction x with
    | done a => exact ⟨a, .done a, h⟩
    | draw bound next ih =>
      cases h with
      | draw hi hb =>
        obtain ⟨a, ha, hb⟩ := ih _ hb
        exact ⟨a, .draw hi ha, hb⟩
  · rintro ⟨a, ha, hb⟩
    induction ha with
    | done _ => exact hb
    | draw hi _ ih => exact .draw hi (ih hb)

theorem reaches_times_iff {count : Nat} {results : List α} :
    (times count x).Reaches results ↔ results.length = count ∧ ∀ a ∈ results, x.Reaches a := by
  induction count generalizing results with
  | zero =>
    change (pure [] : Draw (List α)).Reaches results ↔ _
    rw [reaches_pure_iff, List.length_eq_zero_iff]
    exact ⟨fun h => ⟨h, by simp [h]⟩, fun h => h.1⟩
  | succ count ih =>
    simp only [times, reaches_bind_iff, reaches_pure_iff, ih]
    constructor
    · rintro ⟨a, ha, rest, ⟨hlength, hall⟩, rfl⟩
      exact ⟨by rw [List.length_cons, hlength], List.forall_mem_cons.2 ⟨ha, hall⟩⟩
    · rintro ⟨hlength, hall⟩
      obtain ⟨a, rest, rfl⟩ := List.exists_cons_of_length_eq_add_one hlength
      obtain ⟨ha, hall⟩ := List.forall_mem_cons.1 hall
      exact ⟨a, ha, rest, ⟨Nat.succ.inj hlength, hall⟩, rfl⟩

theorem reaches_number {bound i : Nat} (h : i < bound) : (number bound).Reaches i :=
  .draw h (.done i)

theorem reaches_between {low high n : Nat} (hlow : low ≤ n) (hhigh : n ≤ high) :
    (between low high).Reaches n := by
  refine reaches_bind_iff.2 ⟨n - low, reaches_number (by omega), reaches_pure_iff.2 ?_⟩
  omega

theorem reaches_chance {perMille : Nat} (hpos : 0 < perMille) (h : perMille < 1000) (result : Bool) :
    (chance perMille).Reaches result := by
  cases result with
  | false => exact reaches_bind_iff.2 ⟨perMille, reaches_number h, reaches_pure_iff.2 (by simp)⟩
  | true => exact reaches_bind_iff.2 ⟨0, reaches_number (by decide), reaches_pure_iff.2 (by simpa)⟩

theorem reaches_pick {items : List Text} {s : Text} (h : s ∈ items) : (pick items).Reaches s := by
  obtain ⟨i, hi, rfl⟩ := List.getElem_of_mem h
  refine reaches_bind_iff.2 ⟨i, reaches_number hi, reaches_pure_iff.2 ?_⟩
  rw [List.getD_eq_getElem _ _ hi]

theorem Ensures.reaches_runTimes (h : x.Ensures P) (source : RandomSource) (count : Nat) :
    (Draw.times count x).Reaches (x.runTimes source count).1 := by
  rw [reaches_times_iff]
  induction count generalizing source with
  | zero => simp [runTimes]
  | succ count ih =>
    obtain ⟨hlength, hall⟩ := ih (x.run source).2
    exact ⟨congrArg (· + 1) hlength, List.forall_mem_cons.2 ⟨h.reaches_run source, hall⟩⟩

end Draw

end MarkupTemplate
