import Mathlib.Data.List.Sort

/-!
# Locations of Addresses

`IpLocationStore` (`common/IPLocation/IPLocation.cpp`): ranges of addresses, sorted by their first
addresses. The check for overlaps lets a range begin where the one before it ends, and the search
takes the last address of a range for the first one behind it.

## Main results

* `IpLocationStore.ordered` — a range begins no earlier than those before it end.
* `IpLocationStore.getLocationRecord_eq_some` — which range an address finds.
* `IpLocationStore.locates_iff` — when the ranges are apart and an address finds its own.
-/

namespace IscServer

open List

/-- `IpLocationRecord`: both ends belong to the range. -/
structure IpLocationRecord where
  ipFrom : UInt32
  ipTo : UInt32
  countryCode : String
  countryName : String
  le : ipFrom ≤ ipTo
  deriving DecidableEq

def IpLocationRecord.Contains (loc : IpLocationRecord) (ip : UInt32) : Prop :=
  loc.ipFrom ≤ ip ∧ ip ≤ loc.ipTo

/-- What `Load` makes of the ranges of a file. `std::sort` leaves open the order of ranges with the
same first address; the assertion is `std::is_sorted`, with the comparison `a.IpFrom < b.IpTo`. -/
structure IpLocationStore (file : List IpLocationRecord) where
  records : List IpLocationRecord
  perm : records.Perm file
  sorted : records.Pairwise fun a b => a.ipFrom ≤ b.ipFrom
  checked : records.IsChain fun a b => ¬ b.ipFrom < a.ipTo

namespace IpLocationStore

variable {file : List IpLocationRecord} (store : IpLocationStore file) (ip : UInt32)

/-- `GetLocationRecord`: `std::upper_bound` gives the first range whose last address is larger. -/
def getLocationRecord : Option IpLocationRecord :=
  match store.records.find? fun loc => ip < loc.ipTo with
  | none => none
  | some itr => if ip < itr.ipFrom then none else some itr

/-- A range begins no earlier than those before it end. -/
theorem ordered : store.records.Pairwise fun a b => a.ipTo ≤ b.ipFrom := by
  have htrans : IsTrans IpLocationRecord fun a b => a.ipTo ≤ b.ipFrom :=
    ⟨fun _ b _ hab hbc => UInt32.le_trans hab (UInt32.le_trans b.le hbc)⟩
  exact isChain_iff_pairwise.mp (store.checked.imp fun _ _ h => UInt32.not_lt.mp h)

/-- For every address the ranges are partitioned as `std::upper_bound` needs them. -/
theorem partitioned : store.records.Pairwise fun a b => ip < a.ipTo → ip < b.ipTo :=
  store.ordered.imp fun {_ b} h hlt => UInt32.lt_of_lt_of_le hlt (UInt32.le_trans h b.le)

/-- **What an address finds**: the range that contains it and does not end there. -/
theorem getLocationRecord_eq_some {loc : IpLocationRecord} :
    store.getLocationRecord ip = some loc ↔
      loc ∈ store.records ∧ loc.ipFrom ≤ ip ∧ ip < loc.ipTo := by
  rw [getLocationRecord]
  constructor
  · intro h
    split at h
    · cases h
    · next itr hfind =>
      split_ifs at h with hfrom
      cases h
      exact ⟨mem_of_find?_eq_some hfind, UInt32.not_lt.mp hfrom, by simpa using find?_some hfind⟩
  · rintro ⟨hmem, hfrom, hto⟩
    obtain ⟨before, after, heq⟩ := append_of_mem hmem
    -- The ranges before this one end before it begins.
    have hbefore : ∀ a ∈ before, ¬ ip < a.ipTo := fun a ha hlt => by
      have hordered := store.ordered
      rw [heq, pairwise_append] at hordered
      exact UInt32.not_lt.mpr (UInt32.le_trans (hordered.2.2 a ha loc mem_cons_self) hfrom) hlt
    have hfind : (store.records.find? fun loc => ip < loc.ipTo) = some loc :=
      find?_eq_some_iff_append.mpr ⟨by simpa using hto, before, after, heq, by simpa using hbefore⟩
    rw [hfind]
    exact if_neg (UInt32.not_lt.mpr hfrom)

/-- **Locating**: no two ranges share an address, and the address finds the range that contains it. -/
def Locates : Prop :=
  (store.records.Pairwise fun a b => ∀ shared, ¬ (a.Contains shared ∧ b.Contains shared)) ∧
    ∀ loc, store.getLocationRecord ip = some loc ↔ loc ∈ store.records ∧ loc.Contains ip

/-- An address is located if and only if no range begins where another ends, and none ends there. -/
theorem locates_iff : store.Locates ip ↔
    (store.records.Pairwise fun a b => a.ipTo ≠ b.ipFrom) ∧ ∀ loc ∈ store.records, ip ≠ loc.ipTo := by
  refine and_congr ⟨fun h => ?_, fun h => ?_⟩ ⟨fun h loc hmem heq => ?_, fun h loc => ?_⟩
  · refine h.imp ?_
    intro a b hshare heq
    exact hshare a.ipTo ⟨⟨a.le, UInt32.le_refl _⟩, heq ▸ UInt32.le_refl _, heq ▸ b.le⟩
  · exact (h.and store.ordered).imp fun ⟨hne, hle⟩ shared ⟨ha, hb⟩ =>
      hne (UInt32.le_antisymm hle (UInt32.le_trans hb.1 ha.2))
  · have hfound := (h loc).mpr ⟨hmem, heq ▸ loc.le, heq ▸ UInt32.le_refl _⟩
    exact UInt32.lt_irrefl _ (heq ▸ ((store.getLocationRecord_eq_some ip).mp hfound).2.2)
  · rw [getLocationRecord_eq_some]
    refine and_congr_right fun hmem => and_congr_right fun _ => ⟨UInt32.le_of_lt, fun hle => ?_⟩
    exact UInt32.lt_of_le_of_ne hle (h loc hmem)

end IpLocationStore

/-- One range. -/
def tenAddresses : IpLocationRecord := ⟨1, 10, "de", "Germany", by decide⟩

/-- The last address of the only range is not found. -/
theorem not_locates_last : ¬ IpLocationStore.Locates
    ⟨[tenAddresses], .refl [tenAddresses], pairwise_singleton _ _, .singleton _⟩ 10 :=
  fun h => nomatch (h.2 tenAddresses).mpr ⟨mem_singleton_self _, by decide, by decide⟩

end IscServer
