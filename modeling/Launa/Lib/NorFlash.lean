import Mathlib.Data.List.GetD
import Launa.Lib.Stateful

/-!
# NOR flash behind a driver

`NorFlash` is the driver interface that flash code is generic over: reads, sector erases, and word
writes, each of which may fail. `Device` is a chip that implements it. An erase sets a range to
`0xFF`, a write can only clear bits, and both must be aligned to the chip's geometry. The chip keeps
the operations issued to it, and an arbitrary oracle decides which of them fail. A failed erase or
write leaves anything at all in the range it addresses, and nothing outside it changes.
-/

namespace Launa.Nor

open Stateful

/-- The operations that flash code issues to a driver. -/
inductive Op where
  | read (offset len : ℕ)
  | erase (start stop : ℕ)
  | write (offset : ℕ) (bytes : List UInt8)
  deriving DecidableEq

/-- The address range `[start, stop)` that an operation is about. -/
def Op.start : Op → ℕ
  | .read offset _ => offset
  | .erase start _ => start
  | .write offset _ => offset

/-- The first address behind an operation. -/
def Op.stop : Op → ℕ
  | .read offset len => offset + len
  | .erase _ stop => stop
  | .write offset bytes => offset + bytes.length

/-- The operation is about the address `a`. -/
def Op.Touches (op : Op) (a : ℕ) : Prop := op.start ≤ a ∧ a < op.stop

/-- The operation lies entirely in the range `[lo, hi)`. -/
def Op.Within (op : Op) (lo hi : ℕ) : Prop := lo ≤ op.start ∧ op.stop ≤ hi

/-- The operation is one that changes the flash: an erase or a write. -/
def Op.modifies : Op → Bool
  | .read _ _ => false
  | .erase _ _ => true
  | .write _ _ => true

/-- The effect of an operation that succeeds on the contents of the flash. -/
def Op.apply : Op → (ℕ → UInt8) → ℕ → UInt8
  | .read _ _, mem => mem
  | .erase start stop, mem => fun a => if start ≤ a ∧ a < stop then 0xFF else mem a
  | .write offset bytes, mem => fun a =>
      if offset ≤ a ∧ a < offset + bytes.length then mem a &&& bytes.getD (a - offset) 0xFF
      else mem a

/-- The effect of an operation that fails, where `junk` is what a failed erase or write leaves in
its range. -/
def Op.scramble : Op → (ℕ → UInt8) → (ℕ → UInt8) → ℕ → UInt8
  | .read _ _, _, mem => mem
  | .erase start stop, junk, mem => fun a => if start ≤ a ∧ a < stop then junk a else mem a
  | .write offset bytes, junk, mem => fun a =>
      if offset ≤ a ∧ a < offset + bytes.length then junk a else mem a

/-- An operation leaves alone what it does not touch. -/
theorem Op.apply_of_not_touches {op : Op} {a : ℕ} (h : ¬ op.Touches a) (mem : ℕ → UInt8) :
    op.apply mem a = mem a := by
  cases op with
  | read offset len => rfl
  | erase start stop => exact if_neg h
  | write offset bytes => exact if_neg h

/-- A failed operation leaves alone what it does not touch. -/
theorem Op.scramble_of_not_touches {op : Op} {a : ℕ} (h : ¬ op.Touches a)
    (junk mem : ℕ → UInt8) : op.scramble junk mem a = mem a := by
  cases op with
  | read offset len => rfl
  | erase start stop => exact if_neg h
  | write offset bytes => exact if_neg h

/-- A read leaves the memory alone. -/
theorem Op.apply_of_not_modifies {op : Op} (h : op.modifies = false) (mem : ℕ → UInt8) :
    op.apply mem = mem := by
  cases op <;> simp_all [Op.modifies, Op.apply]

/-- A failed read leaves the memory alone. -/
theorem Op.scramble_of_not_modifies {op : Op} (h : op.modifies = false)
    (junk mem : ℕ → UInt8) : op.scramble junk mem = mem := by
  cases op <;> simp_all [Op.modifies, Op.scramble]

/-- The contents of the flash after operations that all succeed. -/
def replay (ops : List Op) (mem : ℕ → UInt8) : ℕ → UInt8 :=
  ops.foldl (fun m op => op.apply m) mem

/-- No operations leave the memory alone. -/
@[simp] theorem replay_nil (mem : ℕ → UInt8) : replay [] mem = mem := rfl

/-- The first operation is applied first. -/
@[simp] theorem replay_cons (op : Op) (ops : List Op) (mem : ℕ → UInt8) :
    replay (op :: ops) mem = replay ops (op.apply mem) := rfl

/-- Two lists of operations are applied one after the other. -/
theorem replay_append (ops ops' : List Op) (mem : ℕ → UInt8) :
    replay (ops ++ ops') mem = replay ops' (replay ops mem) :=
  List.foldl_append

/-- The bytes of the flash in `[offset, offset + len)`. -/
def bytesAt (mem : ℕ → UInt8) (offset len : ℕ) : List UInt8 :=
  (List.range len).map fun i => mem (offset + i)

/-- As many bytes are read as were asked for. -/
@[simp] theorem bytesAt_length (mem : ℕ → UInt8) (offset len : ℕ) :
    (bytesAt mem offset len).length = len := by
  simp [bytesAt]

/-- A byte that is read is that of its address. -/
@[simp] theorem bytesAt_getElem (mem : ℕ → UInt8) (offset len i : ℕ)
    (h : i < (bytesAt mem offset len).length) : (bytesAt mem offset len)[i] = mem (offset + i) := by
  simp [bytesAt]

/-- The bytes of a range depend only on the contents of the range. -/
theorem bytesAt_congr {mem mem' : ℕ → UInt8} {offset len : ℕ}
    (h : ∀ a, offset ≤ a → a < offset + len → mem a = mem' a) :
    bytesAt mem offset len = bytesAt mem' offset len := by
  apply List.ext_getElem
  · simp
  · intro i hi _
    have hi' : i < len := by simpa using hi
    simpa using h (offset + i) (by omega) (by omega)

/-- Writing over erased flash leaves the bytes written. -/
theorem write_erased {mem : ℕ → UInt8} {offset : ℕ} {bytes : List UInt8} {a : ℕ}
    (h : mem a = 0xFF) (ha : offset ≤ a) (hb : a < offset + bytes.length) :
    (Op.write offset bytes).apply mem a = bytes.getD (a - offset) 0xFF := by
  simp only [Op.apply, ha, hb, and_self, if_true, h]
  exact UInt8.toBitVec_inj.mp (BitVec.allOnes_and)

/-- Writing at the end of the contents of a range whose rest is erased appends to them. -/
theorem write_append {mem : ℕ → UInt8} {base size : ℕ} {old : List UInt8} (data : List UInt8)
    (h : ∀ i, i < size → mem (base + i) = old.getD i 0xFF) (i : ℕ) (hi : i < size) :
    (Op.write (base + old.length) data).apply mem (base + i) = (old ++ data).getD i 0xFF := by
  by_cases hlt : i < old.length
  · have hbefore : ¬ (Op.write (base + old.length) data).Touches (base + i) := fun ht =>
      absurd (Nat.le_of_add_le_add_left ht.1) (Nat.not_le.2 hlt)
    rw [Op.apply_of_not_touches hbefore, h i hi, List.getD_append _ _ _ _ hlt]
  have herased : mem (base + i) = 0xFF := by
    rw [h i hi, List.getD_eq_default _ _ (Nat.not_lt.1 hlt)]
  rw [List.getD_append_right _ _ _ _ (Nat.not_lt.1 hlt)]
  by_cases hin : i < old.length + data.length
  · rw [write_erased herased (by omega) (by omega), Nat.add_sub_add_left]
  · have hafter : ¬ (Op.write (base + old.length) data).Touches (base + i) := fun ht => by
      have hstop : base + i < base + old.length + data.length := ht.2
      omega
    rw [Op.apply_of_not_touches hafter, herased, List.getD_eq_default _ _ (by omega)]

/-- The driver interface of NOR flash. -/
class NorFlash (S : Type) where
  /-- The `len` bytes from `offset`. -/
  read : (offset len : ℕ) → EStateM Unit S (List UInt8)
  /-- Erase the sectors of `[start, stop)`. -/
  erase : (start stop : ℕ) → EStateM Unit S Unit
  /-- Program `bytes` from `offset` on. -/
  write : (offset : ℕ) → (bytes : List UInt8) → EStateM Unit S Unit

/-- The units that writes and erases must be aligned to. -/
structure Geometry where
  wordSize : ℕ
  sectorSize : ℕ

/-- The operation is aligned to the geometry. -/
def Op.Aligned (g : Geometry) : Op → Prop
  | .read _ _ => True
  | .erase start stop => start % g.sectorSize = 0 ∧ stop % g.sectorSize = 0
  | .write offset bytes => offset % g.wordSize = 0 ∧ bytes.length % g.wordSize = 0

instance (g : Geometry) (op : Op) : Decidable (op.Aligned g) := by
  cases op <;> unfold Op.Aligned <;> infer_instance

/-- A flash chip. -/
structure Device (g : Geometry) where
  /-- The contents. -/
  mem : ℕ → UInt8
  /-- Whether the `n`-th operation issued fails, and then what a failed erase or write leaves in its
  range. -/
  fault : ℕ → Op → Option (ℕ → UInt8)
  /-- The operations issued so far. -/
  issued : List Op

namespace Device

variable {g : Geometry}

/-- A chip with contents `mem` and faults `fault`, before its first operation. -/
def start (g : Geometry) (mem : ℕ → UInt8) (fault : ℕ → Op → Option (ℕ → UInt8)) : Device g :=
  ⟨mem, fault, []⟩

/-- A chip with contents `mem` on which no operation fails. -/
def healthy (g : Geometry) (mem : ℕ → UInt8) : Device g := start g mem fun _ _ => none

/-- No operation fails. -/
def Healthy (d : Device g) : Prop := ∀ n op, d.fault n op = none

/-- No operation about an address of `[lo, hi)` fails. -/
def HealthyOn (d : Device g) (lo hi : ℕ) : Prop :=
  ∀ n op a, op.Touches a → lo ≤ a → a < hi → d.fault n op = none

/-- An operation that starts in a range on which no operation fails does not fail. -/
theorem HealthyOn.fault_eq_none {d : Device g} {lo hi : ℕ} (h : d.HealthyOn lo hi) (op : Op)
    (hlo : lo ≤ op.start) (hhi : op.start < hi) (hne : op.start < op.stop) (n : ℕ) :
    d.fault n op = none :=
  h n op op.start ⟨Nat.le_refl _, hne⟩ hlo hhi

/-- A healthy device is healthy everywhere. -/
theorem Healthy.healthyOn {d : Device g} (h : d.Healthy) (lo hi : ℕ) : d.HealthyOn lo hi :=
  fun n op _ _ _ _ => h n op

/-- Which operations fail depends only on the oracle. -/
theorem HealthyOn.of_fault {d d' : Device g} {lo hi : ℕ} (h : d.HealthyOn lo hi)
    (hf : d'.fault = d.fault) : d'.HealthyOn lo hi := fun n op a ht h1 h2 => by
  rw [hf]
  exact h n op a ht h1 h2

/-- The device without faults is healthy. -/
theorem healthy_healthy (mem : ℕ → UInt8) : (healthy g mem).Healthy := fun _ _ => rfl

/-- The chip after operations that all succeed. -/
def after (d : Device g) (ops : List Op) : Device g :=
  ⟨replay ops d.mem, d.fault, d.issued ++ ops⟩

section After

variable (d : Device g) (ops ops' : List Op)

/-- The memory after operations is that of their replay. -/
@[simp] theorem after_mem : (d.after ops).mem = replay ops d.mem := rfl

/-- Operations leave the faults of the device as they are. -/
@[simp] theorem after_fault : (d.after ops).fault = d.fault := rfl

/-- Operations are logged behind the ones before. -/
@[simp] theorem after_issued : (d.after ops).issued = d.issued ++ ops := rfl

/-- No operations leave the device alone. -/
@[simp] theorem after_nil : d.after [] = d := by simp [after]

/-- Two lists of operations are one. -/
@[simp] theorem after_after : (d.after ops).after ops' = d.after (ops ++ ops') := by
  simp [after, replay_append]

variable {d}

/-- Operations leave the health of a range as it is. -/
@[simp] theorem healthyOn_after {lo hi : ℕ} : (d.after ops).HealthyOn lo hi ↔ d.HealthyOn lo hi :=
  Iff.rfl

/-- Operations leave the health of the device as it is. -/
@[simp] theorem healthy_after : (d.after ops).Healthy ↔ d.Healthy := Iff.rfl

end After

/-- Issue an operation to the chip. -/
def issue (op : Op) : EStateM Unit (Device g) Unit := fun d =>
  let logged := { d with issued := d.issued ++ [op] }
  if op.Aligned g then
    match d.fault d.issued.length op with
    | none => .ok () { logged with mem := op.apply d.mem }
    | some junk => .error () { logged with mem := op.scramble junk d.mem }
  else .error () logged

instance : NorFlash (Device g) where
  read offset len := do
    issue (.read offset len)
    return bytesAt (← get).mem offset len
  erase start stop := issue (.erase start stop)
  write offset bytes := issue (.write offset bytes)

/-- What issuing an operation can do: it is logged, the oracle stays, and either it succeeds,
aligned and with its effect, or it fails and at most the range that it modifies changes. -/
theorem issue_cases (op : Op) (d : Device g) :
    (op.Aligned g ∧ d.fault d.issued.length op = none ∧
      issue op d = .ok () (d.after [op])) ∨
    ((¬ op.Aligned g ∨ d.fault d.issued.length op ≠ none) ∧
      ∃ mem', (∀ a, op.modifies = false ∨ ¬ op.Touches a → mem' a = d.mem a) ∧
        issue op d = .error () ⟨mem', d.fault, d.issued ++ [op]⟩) := by
  unfold issue
  by_cases hal : op.Aligned g
  · cases hf : d.fault d.issued.length op with
    | none => exact .inl ⟨hal, rfl, by simp [hal, after]⟩
    | some junk =>
      refine .inr ⟨.inr (by simp), op.scramble junk d.mem, ?_, by simp [hal]⟩
      rintro a (h | h)
      · rw [Op.scramble_of_not_modifies h]
      · rw [Op.scramble_of_not_touches h]
  · exact .inr ⟨.inl hal, d.mem, fun _ _ => rfl, by simp [hal]⟩

/-- An aligned operation that the oracle lets succeed. -/
theorem issue_ok {op : Op} {d : Device g} (hal : op.Aligned g)
    (hf : d.fault d.issued.length op = none) :
    issue op d = .ok () (d.after [op]) := by
  simp [issue, hal, hf, after]

/-- A read that the oracle lets succeed. -/
theorem read_ok {d : Device g} {offset len : ℕ}
    (hf : d.fault d.issued.length (.read offset len) = none) :
    NorFlash.read offset len d = .ok (bytesAt d.mem offset len) (d.after [.read offset len]) := by
  show ((issue (.read offset len)) >>= fun _ => _) d = _
  rw [bind_ok (issue_ok (show (Op.read offset len).Aligned g from trivial) hf)]
  rfl

/-- A read returns as many bytes as were asked for. -/
theorem read_length {d d' : Device g} {offset len : ℕ} {bytes : List UInt8}
    (h : NorFlash.read offset len d = .ok bytes d') : bytes.length = len := by
  obtain ⟨_, t, -, h⟩ := bind_eq_ok.1 h
  rw [bind_ok (get_apply t)] at h
  cases h
  exact bytesAt_length ..

/-- An invariant of issued operations is one of the driver's. -/
theorem keeps_read {I : Device g → Prop} {offset len : ℕ} (h : Keeps I (issue (.read offset len))) :
    Keeps I (NorFlash.read (S := Device g) offset len) :=
  h.bind fun _ => Keeps.get.bind fun _ => Keeps.pure _

/-- The log only grows. -/
theorem final_issue_issued (op : Op) (d : Device g) :
    (final (issue op) d).issued = d.issued ++ [op] := by
  rcases issue_cases op d with ⟨-, -, h⟩ | ⟨-, mem', -, h⟩
  · rw [final_ok h, after_issued]
  · rw [final_error h]

/-- The oracle stays. -/
theorem final_issue_fault (op : Op) (d : Device g) : (final (issue op) d).fault = d.fault := by
  rcases issue_cases op d with ⟨-, -, h⟩ | ⟨-, mem', -, h⟩
  · rw [final_ok h, after_fault]
  · rw [final_error h]

/-- Addresses that an operation is not about keep their contents, as all do under a read. -/
theorem final_issue_mem {op : Op} {d : Device g} {a : ℕ}
    (h : op.modifies = false ∨ ¬ op.Touches a) :
    (final (issue op) d).mem a = d.mem a := by
  rcases issue_cases op d with ⟨-, -, h'⟩ | ⟨-, mem', hm, h'⟩
  · rw [final_ok h', after_mem, replay_cons, replay_nil]
    rcases h with h | h
    · simp [Op.apply_of_not_modifies h]
    · simp [Op.apply_of_not_touches h]
  · rw [final_error h']
    exact hm a h

/-- A property of operations that holds of all operations issued stays so when one that has it is
issued. -/
theorem keeps_issued {P : Op → Prop} {op : Op} (h : P op) :
    Keeps (fun d : Device g => ∀ o ∈ d.issued, P o) (issue op) := by
  intro d hd o ho
  rw [final_issue_issued, List.mem_append, List.mem_singleton] at ho
  rcases ho with ho | rfl
  · exact hd o ho
  · exact h

/-- Contents that an operation is not about stay. -/
theorem keeps_mem {A : ℕ → Prop} {mem : ℕ → UInt8} {op : Op}
    (h : op.modifies = false ∨ ∀ a, A a → ¬ op.Touches a) :
    Keeps (fun d : Device g => ∀ a, A a → d.mem a = mem a) (issue op) := by
  intro d hd a ha
  rw [final_issue_mem (h.imp_right fun h => h a ha)]
  exact hd a ha

end Device

end Launa.Nor
