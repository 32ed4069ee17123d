import IscServer.Chat.ChatCommandHelpers

/-!
# Enumerations as Arguments of Chat Commands

`ArgInfo` of an enumeration (`game/Chat/ChatCommands/ChatCommandArgs.h`): the search map of its texts,
and the search for a token in it. The comparisons of the map and of the search look at the texts folded
to lower case only, so that the keys are folded.

Both texts of a value are to be entered, but the title is entered twice: a value whose constant is not
its title has only an ambiguous entry.

## Main results

* `enumMatch_eq_some_iff` — what is found: a value whose title is its constant, by its title.
* `enumMatch_iff` — when this is the value that the titles and the constants determine.
-/

namespace IscServer.ChatCommands

open PrefixOrder

/-- `EnumText`, without the description. -/
structure EnumText where
  constant : List Char
  title : List Char

/-- An enumeration: its values in the order of their indices, and `EnumUtils::ToString`. -/
structure Enumeration (T : Type) where
  values : List T
  nodup : values.Nodup
  toText : T → EnumText

/-- `SearchMap`: the keys, and the value of a key, if it is not ambiguous. -/
structure SearchMap (T : Type) where
  keys : Finset (List ℕ)
  value : List ℕ → Option T

namespace SearchMap

variable {T : Type} (map : SearchMap T)

/-- `try_emplace`; the value of a key that was there already is made ambiguous. -/
def emplace (key : List ℕ) (val : T) : SearchMap T :=
  if key ∈ map.keys then { map with value := Function.update map.value key none }
  else ⟨insert key map.keys, Function.update map.value key (some val)⟩

/-- `lower_bound`. -/
def lowerBound (key : List ℕ) : Option (List ℕ) :=
  if h : (map.keys.filter (key ≤ ·)).Nonempty then some ((map.keys.filter (key ≤ ·)).min' h) else none

/-- The key behind an iterator. -/
def next (it : List ℕ) : Option (List ℕ) :=
  if h : (map.keys.filter (it < ·)).Nonempty then some ((map.keys.filter (it < ·)).min' h) else none

end SearchMap

namespace Enumeration

variable {T : Type} (tolower : Char → ℕ) (E : Enumeration T)

/-- One round of the loop of `MakeSearchMap`. Both times the title is entered. -/
def enter (map : SearchMap T) (val : T) : SearchMap T :=
  let text := E.toText val
  let map := map.emplace (text.title.map tolower) val
  if text.title ≠ text.constant then map.emplace (text.title.map tolower) val else map

/-- `MakeSearchMap`. -/
def makeSearchMap : SearchMap T := E.values.foldl (E.enter tolower) ⟨∅, fun _ => none⟩

/-- `Match`. -/
def enumMatch (s : List Char) : Option T :=
  let map := E.makeSearchMap tolower
  match map.lowerBound (s.map tolower) with
  | none => none
  | some it =>
    if s.map tolower <+: it then
      if it ≠ s.map tolower ∧ ∃ it₂ ∈ map.next it, s.map tolower <+: it₂ then none
      else map.value it
    else none

/-! ### The rule -/

/-- The titles of a value, folded. -/
def titles (v : T) (key : List ℕ) : Prop := v ∈ E.values ∧ key = (E.toText v).title.map tolower

/-- The titles and the constants, folded. -/
def names (v : T) (key : List ℕ) : Prop :=
  v ∈ E.values ∧
    (key = (E.toText v).title.map tolower ∨ key = (E.toText v).constant.map tolower)

/-- **The value that the texts determine**: the only one that has the token as a text, or, if none has,
the only one with the only text that starts with the token. -/
def Finds (has : T → List ℕ → Prop) (key : List ℕ) (v : T) : Prop :=
  (has v key ∧ ∀ w, has w key → w = v) ∨
  (∀ w, ¬ has w key) ∧ ∃ text, has v text ∧ key <+: text ∧
    ∀ w text', has w text' → key <+: text' → text' = text ∧ w = v

variable {tolower} {E} {val v : T} {map : SearchMap T} {s : List Char}

/-! ### The search map -/

/-- The map has the titles of the values entered. It holds a value, if this is the only one with the
title and its constant is its title. -/
structure Entered (tolower : Char → ℕ) (E : Enumeration T) (vs : List T) (map : SearchMap T) :
    Prop where
  keys : ∀ k, k ∈ map.keys ↔ ∃ v ∈ vs, (E.toText v).title.map tolower = k
  value : ∀ k ∈ map.keys, ∀ v, map.value k = some v ↔
    v ∈ vs ∧ (E.toText v).title.map tolower = k ∧ (E.toText v).title = (E.toText v).constant ∧
      ∀ w ∈ vs, (E.toText w).title.map tolower = k → w = v

/-- A round enters the title; the value is ambiguous, unless the title is new and is the constant. -/
theorem enter_eq (tolower : Char → ℕ) (E : Enumeration T) (map : SearchMap T) (val : T) :
    ∃ value, E.enter tolower map val = ⟨insert ((E.toText val).title.map tolower) map.keys,
      Function.update map.value ((E.toText val).title.map tolower) value⟩ ∧
      ∀ v, value = some v ↔ v = val ∧ (E.toText v).title = (E.toText v).constant ∧
        (E.toText val).title.map tolower ∉ map.keys := by
  rw [enter]
  by_cases hmem : (E.toText val).title.map tolower ∈ map.keys
  · refine ⟨none, ?_, fun v => ⟨nofun, fun h => absurd hmem h.2.2⟩⟩
    simp only [SearchMap.emplace, if_pos hmem, Function.update_idem, Finset.insert_eq_of_mem hmem,
      ite_self]
  · by_cases hconstant : (E.toText val).title = (E.toText val).constant
    · refine ⟨some val, ?_, fun v => ?_⟩
      · rw [if_neg (not_not.mpr hconstant), SearchMap.emplace, if_neg hmem]
      · rw [Option.some.injEq]
        exact ⟨fun h => h ▸ ⟨rfl, hconstant, hmem⟩, fun h => h.1.symm⟩
    · refine ⟨none, ?_, fun v => ⟨nofun, fun h => absurd (h.1 ▸ h.2.1) hconstant⟩⟩
      simp only [SearchMap.emplace, if_neg hmem, ne_eq, hconstant, not_false_eq_true, if_true,
        Finset.mem_insert_self, Function.update_idem]

/-- One more value. -/
theorem Entered.enter {vs : List T} (h : Entered tolower E vs map) (hnew : val ∉ vs) :
    Entered tolower E (vs ++ [val]) (E.enter tolower map val) := by
  obtain ⟨value, heq, hvalue⟩ := enter_eq tolower E map val
  rw [heq]
  refine ⟨fun k => ?_, fun k hk v => ?_⟩
  · simp only [Finset.mem_insert, h.keys, List.mem_append, List.mem_singleton, or_and_right,
      exists_or, exists_eq_left]
    rw [or_comm, eq_comm]
  · simp only [List.mem_append, List.mem_singleton]
    by_cases hsame : (E.toText val).title.map tolower = k
    · subst hsame
      rw [Function.update_self, hvalue, h.keys]
      constructor
      · rintro ⟨rfl, hconstant, hno⟩
        exact ⟨Or.inr rfl, rfl, hconstant,
          fun w hw htitle => hw.resolve_left fun hw => hno ⟨w, hw, htitle⟩⟩
      · rintro ⟨-, -, hconstant, hall⟩
        obtain rfl := hall val (Or.inr rfl) rfl
        exact ⟨rfl, hconstant, fun ⟨w, hw, htitle⟩ => hnew (hall w (Or.inl hw) htitle ▸ hw)⟩
    · have hold : k ∈ map.keys := (Finset.mem_insert.mp hk).resolve_left (Ne.symm hsame)
      rw [Function.update_of_ne (Ne.symm hsame), h.value k hold]
      have hval : ∀ w, (E.toText w).title.map tolower = k → w ≠ val :=
        fun w hw heq => hsame (heq ▸ hw)
      constructor
      · rintro ⟨hv, htitle, hconstant, hall⟩
        exact ⟨Or.inl hv, htitle, hconstant,
          fun w hw hw' => hall w (hw.resolve_right (hval w hw')) hw'⟩
      · rintro ⟨hv, htitle, hconstant, hall⟩
        exact ⟨hv.resolve_right (hval v htitle), htitle, hconstant, fun w hw => hall w (Or.inl hw)⟩

/-- The search map has all values. -/
theorem entered_makeSearchMap : Entered tolower E E.values (E.makeSearchMap tolower) := by
  have hloop : ∀ (vs done : List T) (map : SearchMap T), (done ++ vs).Nodup →
      Entered tolower E done map → Entered tolower E (done ++ vs) (vs.foldl (E.enter tolower) map) := by
    intro vs
    induction vs with
    | nil =>
      intro done map _ h
      rwa [List.append_nil]
    | cons val vs ih =>
      intro done map hnodup h
      have hnew : val ∉ done := fun hmem =>
        (List.nodup_append.mp hnodup).2.2 val hmem val List.mem_cons_self rfl
      rw [List.append_cons] at hnodup ⊢
      exact ih (done ++ [val]) _ hnodup (h.enter hnew)
  exact hloop E.values [] _ E.nodup ⟨by simp, by simp⟩

/-! ### The search -/

/-- **The search** for a key: nothing is found if no key starts with it or, unless it is a key itself,
if several do; and else the value of the only one. -/
theorem enumMatch_cases (s : List Char) : let map := E.makeSearchMap tolower
    let key := s.map tolower
    (∀ k ∈ map.keys, ¬ key <+: k) ∧ E.enumMatch tolower s = none ∨
    key ∉ map.keys ∧ (∃ k ∈ map.keys, ∃ k' ∈ map.keys, key <+: k ∧ key <+: k' ∧ k ≠ k') ∧
      E.enumMatch tolower s = none ∨
    ∃ it ∈ map.keys, key <+: it ∧ (it = key ∨ key ∉ map.keys ∧ ∀ k ∈ map.keys, key <+: k → k = it) ∧
      E.enumMatch tolower s = map.value it := by
  intro map key
  rw [enumMatch]
  -- keys between the token and one that starts with it start with it
  have hbetween : ∀ {k it : List ℕ}, key <+: k → key ≤ it → it ≤ k → key <+: it := by
    rintro k it ⟨w, rfl⟩ hlo hhi
    rcases hhi.eq_or_lt with rfl | hlt
    · exact List.prefix_append _ _
    · exact prefix_of_between hlo hlt
  have hleast : ∀ {it}, map.lowerBound key = some it →
      it ∈ map.keys ∧ key ≤ it ∧ ∀ k ∈ map.keys, key ≤ k → it ≤ k := by
    intro it h
    rw [SearchMap.lowerBound] at h
    split_ifs at h with hne
    obtain rfl := Option.some.inj h
    obtain ⟨hmem, hle⟩ := Finset.mem_filter.mp (Finset.min'_mem _ hne)
    exact ⟨hmem, hle, fun k hk hkey => Finset.min'_le _ _ (Finset.mem_filter.mpr ⟨hk, hkey⟩)⟩
  cases hlower : map.lowerBound key with
  | none =>
    refine Or.inl ⟨fun k hk hstart => ?_, rfl⟩
    rw [SearchMap.lowerBound] at hlower
    split_ifs at hlower with hne
    exact hne ⟨k, Finset.mem_filter.mpr ⟨hk, le_of_starts hstart⟩⟩
  | some it =>
    obtain ⟨hmem, hle, hmin⟩ := hleast hlower
    have hself : key ∈ map.keys → it = key := fun hkey => le_antisymm (hmin key hkey le_rfl) hle
    dsimp only
    split_ifs with hstart hmany
    · obtain ⟨hne, it₂, hnext, hstart₂⟩ := hmany
      rw [Option.mem_def, SearchMap.next] at hnext
      split_ifs at hnext with h₂
      obtain rfl := Option.some.inj hnext
      obtain ⟨hmem₂, hlt⟩ := Finset.mem_filter.mp (Finset.min'_mem _ h₂)
      exact Or.inr (Or.inl ⟨fun hkey => hne (hself hkey),
        ⟨it, hmem, _, hmem₂, hstart, hstart₂, ne_of_lt hlt⟩, rfl⟩)
    · refine Or.inr (Or.inr ⟨it, hmem, hstart, ?_, rfl⟩)
      by_cases hkey : it = key
      · exact Or.inl hkey
      · refine Or.inr ⟨fun h => hkey (hself h), fun k hk hk' => ?_⟩
        by_contra hne
        have hlt : it < k := lt_of_le_of_ne (hmin k hk (le_of_starts hk')) (Ne.symm hne)
        have h₂ : (map.keys.filter (it < ·)).Nonempty := ⟨k, Finset.mem_filter.mpr ⟨hk, hlt⟩⟩
        refine hmany ⟨hkey, (map.keys.filter (it < ·)).min' h₂, ?_, ?_⟩
        · rw [Option.mem_def, SearchMap.next, dif_pos h₂]
        · refine hbetween hk' ?_ (Finset.min'_le _ _ (Finset.mem_filter.mpr ⟨hk, hlt⟩))
          exact hle.trans (Finset.mem_filter.mp (Finset.min'_mem _ h₂)).2.le
    · exact Or.inl ⟨fun k hk hk' => hstart (hbetween hk' hle (hmin k hk (le_of_starts hk'))), rfl⟩

/-- **What is found**: a value whose constant is its title, if the titles determine it. -/
theorem enumMatch_eq_some_iff (s : List Char) (v : T) :
    E.enumMatch tolower s = some v ↔ (E.toText v).title = (E.toText v).constant ∧
      Finds (E.titles tolower) (s.map tolower) v := by
  have hE : Entered tolower E E.values (E.makeSearchMap tolower) := entered_makeSearchMap
  have hkeys : ∀ {w k}, E.titles tolower w k → k ∈ (E.makeSearchMap tolower).keys :=
    fun h => (hE.keys _).mpr ⟨_, h.1, h.2.symm⟩
  rcases enumMatch_cases (E := E) s with ⟨hno, hnone⟩ | ⟨hself, ⟨k, hk, k', hk', hstart, hstart', hne⟩,
    hnone⟩ | ⟨it, hit, hstart, honly, heq⟩
  · rw [hnone]
    refine ⟨nofun, fun ⟨_, hfinds⟩ => ?_⟩
    rcases hfinds with ⟨hhas, -⟩ | ⟨-, text, hhas, hstart, -⟩
    · exact absurd List.prefix_rfl (hno _ (hkeys hhas))
    · exact absurd hstart (hno _ (hkeys hhas))
  · rw [hnone]
    refine ⟨nofun, fun ⟨_, hfinds⟩ => ?_⟩
    rcases hfinds with ⟨hhas, -⟩ | ⟨-, text, -, -, hall⟩
    · exact absurd (hkeys hhas) hself
    · obtain ⟨w, hw, hw'⟩ := (hE.keys k).mp hk
      obtain ⟨u, hu, hu'⟩ := (hE.keys k').mp hk'
      have h := (hall w k ⟨hw, hw'.symm⟩ hstart).1.trans (hall u k' ⟨hu, hu'.symm⟩ hstart').1.symm
      exact absurd h hne
  · rw [heq, hE.value it hit]
    rcases honly with rfl | ⟨hself, honly⟩
    · constructor
      · rintro ⟨hv, htitle, hconstant, hall⟩
        exact ⟨hconstant, Or.inl ⟨⟨hv, htitle.symm⟩, fun w hw => hall w hw.1 hw.2.symm⟩⟩
      · rintro ⟨hconstant, ⟨hhas, hall⟩ | ⟨hno, -⟩⟩
        · exact ⟨hhas.1, hhas.2.symm, hconstant, fun w hw hw' => hall w ⟨hw, hw'.symm⟩⟩
        · obtain ⟨w, hw, hw'⟩ := (hE.keys _).mp hit
          exact absurd ⟨hw, hw'.symm⟩ (hno w)
    · constructor
      · rintro ⟨hv, htitle, hconstant, hall⟩
        refine ⟨hconstant, Or.inr ⟨fun w hw => hself (hkeys hw), it, ⟨hv, htitle.symm⟩, hstart, ?_⟩⟩
        intro w text hw hw'
        obtain rfl := honly text (hkeys hw) hw'
        exact ⟨rfl, hall w hw.1 hw.2.symm⟩
      · rintro ⟨hconstant, ⟨hhas, -⟩ | ⟨-, text, hhas, hstart', hall⟩⟩
        · exact absurd (hkeys hhas) hself
        · obtain rfl := honly text (hkeys hhas) hstart'
          exact ⟨hhas.1, hhas.2.symm, hconstant,
            fun w hw hw' => (hall w _ ⟨hw, hw'.symm⟩ hstart').2⟩

/-! ### The titles and the constants -/

variable (tolower) (E) in
/-- The constants do not matter for a token: a value that the titles and the constants determine has
its title as its constant, and for such a value that the titles determine, no constant of another value
is the token, or starts with it where the title only does. -/
structure Unhindered (key : List ℕ) : Prop where
  constant : ∀ v, Finds (E.names tolower) key v → (E.toText v).title = (E.toText v).constant
  apart : ∀ v, Finds (E.titles tolower) key v → (E.toText v).title = (E.toText v).constant →
    ∀ w ∈ E.values, w ≠ v →
      ((E.toText v).title.map tolower = key → (E.toText w).constant.map tolower ≠ key) ∧
      ((E.toText v).title.map tolower ≠ key → ¬ key <+: (E.toText w).constant.map tolower)

/-- **When enumeration arguments are found by title or constant**: exactly if the constants do not
matter for the token. -/
theorem enumMatch_iff (tolower : Char → ℕ) (E : Enumeration T) (s : List Char) :
    (∀ v, E.enumMatch tolower s = some v ↔ Finds (E.names tolower) (s.map tolower) v) ↔
      E.Unhindered tolower (s.map tolower) := by
  have hname : ∀ {v key}, (E.toText v).title = (E.toText v).constant → E.names tolower v key →
      E.titles tolower v key := fun hconstant hhas =>
    ⟨hhas.1, hhas.2.elim id fun h => h.trans (hconstant ▸ rfl)⟩
  have htitle : ∀ {v key}, E.titles tolower v key → E.names tolower v key := fun h => ⟨h.1, Or.inl h.2⟩
  constructor
  · intro h
    refine ⟨fun v hv => ((enumMatch_eq_some_iff s v).mp ((h v).mpr hv)).1,
      fun v hv hconstant w hw hne => ?_⟩
    rcases (h v).mp ((enumMatch_eq_some_iff s v).mpr ⟨hconstant, hv⟩) with
      ⟨hhas, hall⟩ | ⟨hno, text, hhas, -, hall⟩
    · exact ⟨fun _ hw' => hne (hall w ⟨hw, Or.inr hw'.symm⟩),
        fun hother => absurd (hname hconstant hhas).2.symm hother⟩
    · exact ⟨fun hself => absurd ⟨hhas.1, Or.inl hself.symm⟩ (hno v),
        fun _ hw' => hne (hall w _ ⟨hw, Or.inr rfl⟩ hw').2⟩
  · intro h v
    rw [enumMatch_eq_some_iff]
    constructor
    · rintro ⟨hconstant, hfinds⟩
      have hapart := h.apart v hfinds hconstant
      rcases hfinds with ⟨hhas, hall⟩ | ⟨hno, text, hhas, hstart, hall⟩
      · refine Or.inl ⟨htitle hhas, ?_⟩
        rintro w ⟨hw, hw' | hw'⟩
        · exact hall w ⟨hw, hw'⟩
        · exact not_not.mp fun hne => (hapart w hw hne).1 hhas.2.symm hw'.symm
      · have hself : (E.toText v).title.map tolower ≠ s.map tolower := fun heq =>
          hno v ⟨hhas.1, heq.symm⟩
        -- only this value has a constant that starts with the token
        have hown : ∀ w ∈ E.values, s.map tolower <+: (E.toText w).constant.map tolower → w = v :=
          fun w hw hw' => not_not.mp fun hne => (hapart w hw hne).2 hself hw'
        refine Or.inr ⟨?_, text, htitle hhas, hstart, ?_⟩
        · rintro w ⟨hw, hw' | hw'⟩
          · exact hno w ⟨hw, hw'⟩
          · obtain rfl := hown w hw (hw' ▸ List.prefix_rfl)
            exact hno w (hname hconstant ⟨hw, Or.inr hw'⟩)
        · rintro w text' ⟨hw, hw' | hw'⟩ hstart'
          · exact hall w text' ⟨hw, hw'⟩ hstart'
          · obtain rfl := hown w hw (hw' ▸ hstart')
            exact hall w text' (hname hconstant ⟨hw, Or.inr hw'⟩) hstart'
    · intro hfinds
      have hconstant := h.constant v hfinds
      refine ⟨hconstant, ?_⟩
      rcases hfinds with ⟨hhas, hall⟩ | ⟨hno, text, hhas, hstart, hall⟩
      · exact Or.inl ⟨hname hconstant hhas, fun w hw => hall w (htitle hw)⟩
      · exact Or.inr ⟨fun w hw => hno w (htitle hw), text, hname hconstant hhas, hstart,
          fun w text' hw => hall w text' (htitle hw)⟩

/-- An enumeration with one value. -/
def oneRole : Enumeration Unit := ⟨[()], by decide, fun _ => ⟨"ROLE_TANK".toList, "Tank".toList⟩⟩

/-- **A title that is not the constant** is not found. -/
theorem enumMatch_oneRole :
    oneRole.enumMatch Char.toNat "Tank".toList = none ∧
      Finds (oneRole.names Char.toNat) ("Tank".toList.map Char.toNat) () :=
  ⟨by decide +kernel, Or.inl ⟨⟨by decide, Or.inl rfl⟩, fun _ _ => rfl⟩⟩

end Enumeration

end IscServer.ChatCommands
