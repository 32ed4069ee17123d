import Mathlib
import IscServer.Library.Run

/-!
# Redirected Threat

`RegisterRedirectThreat`, `UnregisterRedirectThreat` and `UpdateRedirectInfo` of `ThreatManager`
(`game/Combat/ThreatManager.cpp`). A failed `ASSERT` leaves no state.
-/

namespace IscServer.Combat

open List

/-- `_redirectRegistry`: the victims and percentages of each spell. -/
abbrev RedirectRegistry (U : Type) := AList fun _ : ℕ => AList fun _ : U => ℕ

variable {U : Type}

/-- The victims and percentages of all spells. -/
def RedirectRegistry.pairs (registry : RedirectRegistry U) : List (U × ℕ) :=
  registry.entries.flatMap fun spell => spell.2.entries.map fun pair => (pair.1, pair.2)

/-- What the percentages add up to. -/
def totalOf (pairs : List (U × ℕ)) : ℕ := (pairs.map Prod.snd).sum

/-- The loops of `UpdateRedirectInfo`, from `totalPct` on: what they push to `_redirectInfo`. -/
def updateRedirectInfo : List (U × ℕ) → ℕ → Option (List (U × ℕ))
  | [], _ => some []
  | victimPair :: order, totalPct =>
    let thisPct := min ((2 ^ 32 + 100 - totalPct) % 2 ^ 32) victimPair.2
    if 0 < thisPct then
      let totalPct := (totalPct + thisPct) % 2 ^ 32
      if totalPct ≤ 100 then
        if totalPct = 100 then some [(victimPair.1, thisPct)]
        else (updateRedirectInfo order totalPct).map ((victimPair.1, thisPct) :: ·)
      else none
    else updateRedirectInfo order totalPct

/-- The loops end with what is registered, or at 100 percent. -/
theorem updateRedirectInfo_spec (order : List (U × ℕ)) {totalPct : ℕ} (h : totalPct < 100) :
    ∃ info, updateRedirectInfo order totalPct = some info ∧ (∀ pair ∈ info, 0 < pair.2) ∧
      totalPct + totalOf info = min 100 (totalPct + totalOf order) := by
  induction order generalizing totalPct with
  | nil => exact ⟨[], rfl, by simp, by simp [totalOf]; omega⟩
  | cons victimPair order ih =>
    have hleft : (2 ^ 32 + 100 - totalPct) % 2 ^ 32 = 100 - totalPct := by omega
    have hsum : totalOf (victimPair :: order) = victimPair.2 + totalOf order := sum_cons
    rw [updateRedirectInfo, hleft, hsum]
    dsimp only
    split_ifs with hpos hle hfull
    · refine ⟨[_], rfl, forall_mem_singleton.mpr hpos, ?_⟩
      simp only [totalOf, map_singleton, sum_singleton]
      omega
    · obtain ⟨info, heq, hinfo, htotal⟩ := ih (Nat.lt_of_le_of_ne hle hfull)
      refine ⟨_ :: info, by rw [heq]; rfl, forall_mem_cons.mpr ⟨hpos, hinfo⟩, ?_⟩
      simp only [totalOf, map_cons, sum_cons] at htotal ⊢
      omega
    · omega
    · obtain ⟨info, heq, hinfo, htotal⟩ := ih h
      exact ⟨info, heq, hinfo, by omega⟩

/-- The registry and `_redirectInfo`. -/
abbrev Redirects (U : Type) := RedirectRegistry U × List (U × ℕ)

/-- **Redirections are capped**, and none of them is empty. -/
structure Redirects.Capped (r : Redirects U) : Prop where
  positive : ∀ pair ∈ r.2, 0 < pair.2
  total : totalOf r.2 = min 100 (totalOf r.1.pairs)

variable [DecidableEq U]

/-- What spell scripts call. -/
inductive RedirectOp (U : Type)
  | registerRedirectThreat (spellId : ℕ) (victim : U) (pct : ℕ)
  | unregisterRedirectThreat (spellId : ℕ)
  | unregisterRedirectThreatOf (spellId : ℕ) (victim : U)

/-- What a call makes of the registry, unless it finds nothing to erase. -/
def RedirectRegistry.apply (registry : RedirectRegistry U) :
    RedirectOp U → Option (RedirectRegistry U)
  | .registerRedirectThreat spellId victim pct =>
    some (registry.insert spellId (((registry.lookup spellId).getD ∅).insert victim pct))
  | .unregisterRedirectThreat spellId =>
    if spellId ∈ registry then some (registry.erase spellId) else none
  | .unregisterRedirectThreatOf spellId victim =>
    (registry.lookup spellId).bind fun victimMap =>
      if victim ∈ victimMap then some (registry.insert spellId (victimMap.erase victim)) else none

/-- A call, with the order in which `UpdateRedirectInfo` goes through the registry. -/
def redirectStep (r : Option (Redirects U)) (call : RedirectOp U × List (U × ℕ)) :
    Option (Redirects U) :=
  r.bind fun r => match r.1.apply call.1 with
    | none => some r
    | some registry => (updateRedirectInfo call.2 0).map fun info => (registry, info)

/-- The order is any order of the new registry. -/
def Walks (r : Option (Redirects U)) (call : RedirectOp U × List (U × ℕ)) : Prop :=
  ∀ registry ∈ r.bind fun r => r.1.apply call.1, call.2.Perm registry.pairs

/-- **Threat redirection** never exceeds 100 percent, in any run, and no `ASSERT` fails. -/
theorem redirections_capped (calls : List (RedirectOp U × List (U × ℕ)))
    (hwalks : Run.Along redirectStep Walks (some (∅, [])) calls) :
    ∃ r, calls.foldl redirectStep (some (∅, [])) = some r ∧ r.Capped := by
  refine hwalks.invariant (fun r => ∃ r', r = some r' ∧ r'.Capped) ?_ ⟨_, rfl, by simp, rfl⟩
  rintro _ call ⟨r, rfl, hr⟩ hwalks
  rw [redirectStep, Option.bind_some]
  cases happly : r.1.apply call.1 with
  | none => exact ⟨r, rfl, hr⟩
  | some registry =>
    obtain ⟨info, heq, hpos, htotal⟩ := updateRedirectInfo_spec call.2 (Nat.succ_pos 99)
    have hsame : totalOf call.2 = totalOf registry.pairs :=
      ((hwalks registry happly).map Prod.snd).sum_eq
    rw [Nat.zero_add, Nat.zero_add, hsame] at htotal
    exact ⟨(registry, info), by rw [heq]; rfl, hpos, htotal⟩

/-- The whole threat goes to 7, and then a part of it to 8. -/
theorem redirections_capped_two :
    ∃ r, [(RedirectOp.registerRedirectThreat 34477 7 100, [(7, 100)]),
      (.registerRedirectThreat 57934 8 30, [(8, 30), (7, 100)])].foldl redirectStep
        (some (∅, [])) = some r ∧ r.Capped := by
  refine redirections_capped _ ⟨?_, ?_, trivial⟩ <;> rintro _ ⟨⟩ <;> decide

end IscServer.Combat
