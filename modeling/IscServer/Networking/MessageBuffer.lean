import Mathlib

/-!
# Message Buffers

`MessageBuffer` (`common/Utilities/MessageBuffer.h`): a byte vector with a read and a write
cursor. Cursors are natural numbers; the two differences that the source computes in unsigned
arithmetic wrap at `2 ^ 64` (`unsignedSub`), so that a read cursor beyond the write cursor shows
up as the huge active size it is in the source.
-/

namespace IscServer

open List

/-- Subtraction of two `std::size_t`. -/
def unsignedSub (a b : ℕ) : ℕ :=
  if b ≤ a then a - b else a + 2 ^ 64 - b

theorem unsignedSub_of_le {a b : ℕ} (h : b ≤ a) : unsignedSub a b = a - b :=
  if_pos h

/-- `MessageBuffer`. -/
structure MessageBuffer where
  wpos : ℕ
  rpos : ℕ
  storage : List UInt8
  deriving DecidableEq, Repr

namespace MessageBuffer

/-- `std::vector::resize`: cut off, or filled up with zeros. -/
def resizeStorage (storage : List UInt8) (bytes : ℕ) : List UInt8 :=
  storage.take bytes ++ List.replicate (bytes - storage.length) 0

@[simp] theorem length_resizeStorage (storage : List UInt8) (bytes : ℕ) :
    (resizeStorage storage bytes).length = bytes := by
  simp only [resizeStorage, length_append, length_take, length_replicate]
  omega

/-- `MessageBuffer(std::size_t initialSize)`. -/
def ofSize (initialSize : ℕ) : MessageBuffer :=
  ⟨0, 0, List.replicate initialSize 0⟩

/-- `Reset`. -/
def reset (b : MessageBuffer) : MessageBuffer :=
  { b with wpos := 0, rpos := 0 }

/-- `Resize`. -/
def resize (b : MessageBuffer) (bytes : ℕ) : MessageBuffer :=
  { b with storage := resizeStorage b.storage bytes }

/-- The memory from `GetReadPointer` on. -/
def fromReadPointer (b : MessageBuffer) : List UInt8 :=
  b.storage.drop b.rpos

/-- `ReadCompleted`. -/
def readCompleted (b : MessageBuffer) (bytes : ℕ) : MessageBuffer :=
  { b with rpos := b.rpos + bytes }

/-- `WriteCompleted`. -/
def writeCompleted (b : MessageBuffer) (bytes : ℕ) : MessageBuffer :=
  { b with wpos := b.wpos + bytes }

/-- `GetActiveSize`. -/
def activeSize (b : MessageBuffer) : ℕ :=
  unsignedSub b.wpos b.rpos

/-- `GetRemainingSpace`. -/
def remainingSpace (b : MessageBuffer) : ℕ :=
  unsignedSub b.storage.length b.wpos

/-- The bytes between the cursors. -/
def active (b : MessageBuffer) : List UInt8 :=
  b.fromReadPointer.take b.activeSize

/-- `memcpy` of `data` to the write pointer. -/
def copyIn (b : MessageBuffer) (data : List UInt8) : MessageBuffer :=
  { b with storage := b.storage.take b.wpos ++ data ++ b.storage.drop (b.wpos + data.length) }

/-- `Write`. -/
def write (b : MessageBuffer) (data : List UInt8) : MessageBuffer :=
  if data.length ≠ 0 then (b.copyIn data).writeCompleted data.length else b

/-- `Normalize`. -/
def normalize (b : MessageBuffer) : MessageBuffer :=
  if b.rpos ≠ 0 then
    let storage := if b.rpos ≠ b.wpos then b.active ++ b.storage.drop b.activeSize else b.storage
    { wpos := unsignedSub b.wpos b.rpos, rpos := 0, storage }
  else b

/-- `EnsureFreeSpace`. -/
def ensureFreeSpace (b : MessageBuffer) : MessageBuffer :=
  if b.remainingSpace = 0 then b.resize (b.storage.length * 3 / 2) else b

/-- `Move`, and the move constructor: the source is left without storage and with both cursors
at the start. -/
def moved : MessageBuffer :=
  ⟨0, 0, []⟩

/-! ### Buffers with ordered cursors -/

/-- The cursors are in order and inside of the storage. -/
structure Ordered (b : MessageBuffer) : Prop where
  read_le : b.rpos ≤ b.wpos
  write_le : b.wpos ≤ b.storage.length

variable {b : MessageBuffer}

theorem Ordered.activeSize_eq (h : b.Ordered) : b.activeSize = b.wpos - b.rpos :=
  unsignedSub_of_le h.read_le

theorem Ordered.remainingSpace_eq (h : b.Ordered) : b.remainingSpace = b.storage.length - b.wpos :=
  unsignedSub_of_le h.write_le

theorem Ordered.length_active (h : b.Ordered) : b.active.length = b.activeSize := by
  have := h.write_le
  rw [active, fromReadPointer, h.activeSize_eq, length_take, length_drop]
  omega

theorem ordered_ofSize (n : ℕ) : (ofSize n).Ordered :=
  ⟨Nat.le_refl _, Nat.zero_le _⟩

@[simp] theorem active_ofSize (n : ℕ) : (ofSize n).active = [] := by
  simp [active, activeSize, ofSize, unsignedSub]

variable {n : ℕ}

/-- Reading within the active bytes drops them. -/
theorem Ordered.readCompleted (h : b.Ordered) (hn : n ≤ b.activeSize) :
    (b.readCompleted n).Ordered ∧ (b.readCompleted n).active = b.active.drop n ∧
      (b.readCompleted n).activeSize = b.activeSize - n := by
  rw [h.activeSize_eq] at hn
  have hord : (b.readCompleted n).Ordered := by
    have := h.read_le
    exact ⟨by simp only [MessageBuffer.readCompleted]; omega, h.write_le⟩
  have hsize : (b.readCompleted n).activeSize = b.activeSize - n := by
    rw [hord.activeSize_eq, h.activeSize_eq]
    simp only [MessageBuffer.readCompleted]
    omega
  refine ⟨hord, ?_, hsize⟩
  rw [active, hsize, active, drop_take, fromReadPointer, fromReadPointer, drop_drop]
  rfl

/-- Writing appends to the active bytes. -/
theorem Ordered.write (h : b.Ordered) (data : List UInt8) :
    (b.write data).Ordered ∧ (b.write data).active = b.active ++ data ∧
      (b.write data).rpos = b.rpos ∧ (b.write data).wpos = b.wpos + data.length := by
  have hr := h.read_le
  have hw := h.write_le
  rw [MessageBuffer.write]
  split_ifs with hdata
  · have hord : ((b.copyIn data).writeCompleted data.length).Ordered := by
      refine ⟨by simp only [writeCompleted, copyIn]; omega, ?_⟩
      simp only [writeCompleted, copyIn, length_append, length_take]
      omega
    refine ⟨hord, ?_, rfl, rfl⟩
    rw [active, active, hord.activeSize_eq, h.activeSize_eq]
    simp only [fromReadPointer, writeCompleted, copyIn]
    rw [append_assoc, drop_append_of_le_length (by rw [length_take]; omega),
      drop_take, take_append, take_of_length_le (by rw [length_take]; omega)]
    congr 1
    rw [take_append_of_le_length (by rw [length_take, length_drop]; omega)]
    exact take_of_length_le (by rw [length_take, length_drop]; omega)
  · have hnil : data = [] := length_eq_zero_iff.mp (not_not.mp hdata)
    simp [hnil, h]

/-- Bytes that the stream has put behind the write pointer count as written once it is moved. -/
theorem writeCompleted_copyIn (b : MessageBuffer) (data : List UInt8) :
    (b.copyIn data).writeCompleted data.length = b.write data := by
  rw [write]
  split_ifs with hdata
  · rfl
  · have hnil : data = [] := length_eq_zero_iff.mp (not_not.mp hdata)
    simp [hnil, copyIn, writeCompleted]

/-- Writing into the remaining space does not change the size of the storage. -/
theorem Ordered.length_storage_write (h : b.Ordered) {data : List UInt8}
    (hdata : data.length ≤ b.remainingSpace) :
    (b.write data).storage.length = b.storage.length := by
  rw [h.remainingSpace_eq] at hdata
  rw [MessageBuffer.write]
  split_ifs
  · simp only [writeCompleted, copyIn, length_append, length_take, length_drop]
    omega
  · rfl

/-- The active bytes of a buffer from which nothing has been read. -/
theorem active_of_rpos_eq_zero (h : b.rpos = 0) : b.active = b.storage.take b.wpos := by
  simp [active, activeSize, fromReadPointer, h, unsignedSub]

/-- The effect of copying `n` unread bytes of one buffer behind those of another one. -/
structure Transfer (src dst : MessageBuffer) (n : ℕ) : Prop where
  le_activeSize : n ≤ src.activeSize
  take_fromReadPointer : src.fromReadPointer.take n = src.active.take n
  length_take : (src.active.take n).length = n
  src_ordered : (src.readCompleted n).Ordered
  src_active : (src.readCompleted n).active = src.active.drop n
  src_activeSize : (src.readCompleted n).activeSize = src.activeSize - n
  dst_ordered : (dst.write (src.active.take n)).Ordered
  dst_active : (dst.write (src.active.take n)).active = dst.active ++ src.active.take n
  dst_rpos : (dst.write (src.active.take n)).rpos = dst.rpos
  dst_wpos : (dst.write (src.active.take n)).wpos = dst.wpos + n
  dst_length : (dst.write (src.active.take n)).storage.length = dst.storage.length

variable {src dst : MessageBuffer}

/-- Copying as much as one buffer has and the other one has space for. -/
theorem Ordered.transfer (hsrc : src.Ordered) (hdst : dst.Ordered) :
    Transfer src dst (min src.activeSize dst.remainingSpace) := by
  set n := min src.activeSize dst.remainingSpace
  have hle : n ≤ src.activeSize := Nat.min_le_left _ _
  have hlen : (src.active.take n).length = n := by
    rw [length_take, hsrc.length_active, Nat.min_eq_left hle]
  obtain ⟨hord, hactive, hsize⟩ := hsrc.readCompleted hle
  obtain ⟨hord', hactive', hrpos, hwpos⟩ := hdst.write (src.active.take n)
  rw [hlen] at hwpos
  have hlen' : (dst.write (src.active.take n)).storage.length = dst.storage.length :=
    hdst.length_storage_write (by rw [hlen]; exact Nat.min_le_right _ _)
  refine ⟨hle, ?_, hlen, hord, hactive, hsize, hord', hactive', hrpos, hwpos, hlen'⟩
  rw [MessageBuffer.active, take_take, Nat.min_eq_left hle]

/-- A transfer that moves something. -/
theorem Transfer.take_ne_nil (h : Transfer src dst n) (hn : 0 < n) : src.active.take n ≠ [] := by
  intro hnil
  have hlen := h.length_take
  rw [hnil, length_nil] at hlen
  omega

/-- What a buffer that has not been read holds after a transfer. -/
theorem Transfer.length_got (h : Transfer src dst n) (hord : dst.Ordered) (hrpos : dst.rpos = 0) :
    dst.active.length + (src.active.take n).length = dst.wpos + n := by
  rw [hord.length_active, hord.activeSize_eq, hrpos, Nat.sub_zero, h.length_take]

/-- A transfer that leaves nothing behind. -/
theorem Transfer.src_active_nil (h : Transfer src dst n)
    (hempty : (src.readCompleted n).activeSize = 0) : (src.readCompleted n).active = [] :=
  length_eq_zero_iff.mp (h.src_ordered.length_active.trans hempty)

/-- Normalizing moves the active bytes to the start. -/
theorem Ordered.normalize (h : b.Ordered) :
    b.normalize.Ordered ∧ b.normalize.active = b.active ∧ b.normalize.rpos = 0 := by
  have hr := h.read_le
  have hlen := h.length_active
  rw [MessageBuffer.normalize]
  split_ifs with h0 hne
  · have hsize := h.activeSize_eq
    have hord : (⟨unsignedSub b.wpos b.rpos, 0, b.active ++ b.storage.drop b.activeSize⟩ :
        MessageBuffer).Ordered := by
      refine ⟨Nat.zero_le _, ?_⟩
      simp only [unsignedSub_of_le hr, length_append]
      omega
    refine ⟨hord, ?_, rfl⟩
    rw [active, hord.activeSize_eq]
    simp only [fromReadPointer, drop_zero, unsignedSub_of_le hr, Nat.sub_zero]
    rw [← hsize, ← hlen, take_left]
  · have heq : b.rpos = b.wpos := not_not.mp hne
    refine ⟨⟨Nat.zero_le _, ?_⟩, ?_, rfl⟩
    · simp only [unsignedSub_of_le hr]
      omega
    · simp [active, activeSize, unsignedSub, heq]
  · exact ⟨h, rfl, not_not.mp h0⟩

/-- Growing the storage keeps the active bytes. -/
theorem Ordered.ensureFreeSpace (h : b.Ordered) :
    b.ensureFreeSpace.Ordered ∧ b.ensureFreeSpace.active = b.active ∧
      b.ensureFreeSpace.rpos = b.rpos := by
  have hr := h.read_le
  have hw := h.write_le
  rw [MessageBuffer.ensureFreeSpace]
  split_ifs
  · have hgrow : b.storage.length ≤ b.storage.length * 3 / 2 := by omega
    have hstorage : resizeStorage b.storage (b.storage.length * 3 / 2) =
        b.storage ++ List.replicate (b.storage.length * 3 / 2 - b.storage.length) 0 := by
      rw [resizeStorage, take_of_length_le hgrow]
    refine ⟨⟨hr, ?_⟩, ?_, rfl⟩
    · simp only [resize, hstorage, length_append]
      omega
    · have hsize : (b.resize (b.storage.length * 3 / 2)).activeSize = b.activeSize := rfl
      rw [active, hsize, active, h.activeSize_eq]
      simp only [fromReadPointer, resize, hstorage]
      rw [drop_append_of_le_length (by omega), take_append_of_le_length]
      rw [length_drop]
      omega
  · exact ⟨h, rfl, rfl⟩

end MessageBuffer

end IscServer
