import RiscvEm.Sets.System

/-
  The instruction `cbo.zero` and the byte stores that it
  stands for.

  Key definitions include:
    * `cboBlock`
    * `CboZeroIsStores`
    * `CboZeroOk`

  Key theorems include `cbo_zero_is_stores_iff`.
-/

------------------------------------------------------------
-- The Stores
------------------------------------------------------------

namespace RiscvEm

variable {σ : Type}

/- The aligned block of an address. -/
def cboBlock
    (addr : BitVec 64) : BitVec 64 :=
  addr &&& ~~~63

/- `MMIO::write` accepts a byte at this address. -/
def Writable
    (P : Platform σ)
    (addr : BitVec 64) : Prop :=
  takesDram P addr .Byte ∨
    (P.devs.find? (·.inWriteWindow addr .Byte)).isSome = true

instance
    (P : Platform σ)
    (addr : BitVec 64) :
    Decidable (Writable P addr) :=
  inferInstanceAs (Decidable (_ ∨ _))

/- Every byte of a block can be written. -/
def BlockWritable
    (P : Platform σ)
    (block : BitVec 64) : Prop :=
  ∀ i < 64, Writable P (block + BitVec.ofNat 64 i)

/- The whole block lies in RAM. -/
def BlockInRam
    (P : Platform σ)
    (block : BitVec 64) : Prop :=
  2 ^ 31 ≤ block.toNat ∧
    block.toNat + 64 ≤ 2 ^ 31 + P.memsize.toNat

/- Memory with a range of bytes of an array zeroed. -/
def Bytes.zeroed
    (data : Bytes)
    (off n : Nat) : Bytes :=
  fun i => if off ≤ i ∧ i < off + n then 0 else data i

/- The compiled function in a slot is valid and current. -/
def JitContext.Live
    (j : JitContext)
    (i : BitVec 20) : Prop :=
  (j.jits i).valid = true ∧
    (j.jits i).pageVersion =
      j.pageVerionBitmap (pageIndex (j.jits i).pc)

/-
  The effect of stores: what they leave in memory, devices
  and the hart, reservation included; compiled code that the
  stores invalidate is not used any more.
-/
structure SameStores
    (s ref : State σ) : Prop where
  mem : s.mem = ref.mem
  world : s.world = ref.world
  hart : s.hart = ref.hart
  live : ∀ i, s.jctx.Live i → ref.jctx.Live i

/-
  The instruction is sixty-four stores of zero bytes. The
  stores are those of `zeroBytes`, one after another through
  `MMIO::write`.
-/
structure CboZeroIsStores
    (P : Platform σ)
    (d : InstructionData)
    (s : State σ) : Prop where
  inside : 2 ^ 31 ≤ (cboBlock (s.gpr d.rs1)).toNat →
    execcbo_zero P d s ≠ .error .outOfBounds
  ram : ∀ r, s.mem.ram = .ok r →
    BlockInRam P (cboBlock (s.gpr d.rs1)) →
    ∃ out s', execcbo_zero P d s = .ok (out, s') ∧
      s'.mem = s.mem.setRam { r with
        data := r.data.zeroed
          (cboBlock (s.gpr d.rs1) - 0x80000000).toNat 64 }
  stores : BlockWritable P (cboBlock (s.gpr d.rs1)) →
    ∀ ref,
      zeroBytes P (cboBlock (s.gpr d.rs1)) 64 s = .ok ref →
      ∃ s', execcbo_zero P d s = .ok (.next 4, s') ∧
        SameStores s' ref
  fault : ¬ BlockWritable P (cboBlock (s.gpr d.rs1)) →
    ∃ n tval s', execcbo_zero P d s =
      .ok (⟨false, false, n, EXC_STORE_ACCESS_FAULT, tval⟩,
        s')

/-
  Below RAM, every byte is writable. Otherwise the block is
  in RAM, and if its page is counted then the stores would
  neither end the reservation nor meet compiled code.
-/
def CboZeroOk
    (P : Platform σ)
    (s : State σ)
    (block : BitVec 64) : Prop :=
  if 2 ^ 31 ≤ block.toNat then
    BlockInRam P block ∧
      (pageIndex block < s.jctx.pages →
        s.hart.reservation.check block = s.hart.reservation ∧
        ∀ i, s.jctx.Live i →
          pageIndex (s.jctx.jits i).pc ≠ pageIndex block)
  else
    BlockWritable P block

end RiscvEm

------------------------------------------------------------
-- Stores To A Block In RAM
------------------------------------------------------------

namespace RiscvEm

variable {σ : Type}

theorem cboBlock_aligned
    (addr : BitVec 64) :
    (cboBlock addr).toNat % 64 = 0 := by
  have hLow : cboBlock addr &&& 63 = 0 := by
    unfold cboBlock
    rw [BitVec.and_assoc]
    simp
  have hNat := congrArg BitVec.toNat hLow
  rw [BitVec.toNat_and] at hNat
  have hMask : (63 : BitVec 64).toNat = 2 ^ 6 - 1 := rfl
  rw [hMask, Nat.and_two_pow_sub_one_eq_mod] at hNat
  exact hNat

theorem pageIndex_eq
    (addr : BitVec 64)
    (hLo : 2 ^ 31 ≤ addr.toNat) :
    pageIndex addr = (addr.toNat - 2 ^ 31) / 4096 := by
  unfold pageIndex
  rw [BitVec.toNat_ushiftRight, toNat_ramOffset addr hLo,
    Nat.shiftRight_eq_div_pow]

/- A check behind another one finds nothing more. -/
theorem Reservation.check_check
    (r : Reservation)
    {a b : BitVec 64}
    (h : a ≤ b) :
    (r.check a).check b = r.check a := by
  unfold Reservation.check
  by_cases hA : r.valid = true ∧ a ≤ r.vaddr ∧
      a ≤ r.vaddr + r.size.word
  · rw [if_pos hA]
    simp
  · rw [if_neg hA, if_neg]
    rintro ⟨hValid, hB, hB'⟩
    exact hA
      ⟨hValid, BitVec.le_trans h hB, BitVec.le_trans h hB'⟩

theorem Bytes.zeroed_zero
    (data : Bytes)
    (off : Nat) :
    data.zeroed off 0 = data := by
  funext i
  unfold Bytes.zeroed
  rw [if_neg]
  omega

theorem Bytes.zeroed_one
    (data : Bytes)
    (off : Nat) :
    scatterLe data off 1 0 = data.zeroed off 1 := by
  funext i
  unfold Bytes.zeroed scatterLe
  by_cases hAt : off ≤ i ∧ i < off + 1
  · rw [if_pos hAt, if_pos hAt]
    simp
  · rw [if_neg hAt, if_neg hAt]

/- Zero a range, then the one behind it. -/
theorem Bytes.zeroed_zeroed
    (data : Bytes)
    (off m n : Nat) :
    (data.zeroed off m).zeroed (off + m) n =
      data.zeroed off (m + n) := by
  funext i
  unfold Bytes.zeroed
  by_cases hRest : off + m ≤ i ∧ i < off + m + n
  · rw [if_pos hRest, if_pos (by omega)]
  · rw [if_neg hRest]
    apply if_congr _ rfl rfl
    omega

theorem MemoryMap.setRam_setRam
    (m : MemoryMap)
    (r r' : MemoryRegion) :
    (m.setRam r).setRam r' = m.setRam r' := by
  unfold MemoryMap.setRam
  cases hDirect : m.ramDirect with
  | none => simp [hDirect]
  | some i => simp

/- Stores of the bytes of a page count the page. -/
theorem JitContext.bumpPage_eq
    (j : JitContext)
    (addr : BitVec 64)
    (h : pageIndex addr < j.pages) :
    j.bumpPage addr = .ok { j with
      pageVerionBitmap := Function.update j.pageVerionBitmap
        (pageIndex addr)
        (j.pageVerionBitmap (pageIndex addr) + 1) } :=
  if_pos h

/-
  What `n` stores of zero bytes leave behind, all of them in
  one page of RAM.
-/
structure ZeroedBytes
    (s ref : State σ)
    (r : MemoryRegion)
    (addr : BitVec 64)
    (n : Nat) : Prop where
  mem : ref.mem = s.mem.setRam { r with
    data := r.data.zeroed (addr - 0x80000000).toNat n }
  world : ref.world = s.world
  hart : ref.hart = { s.hart with
    reservation :=
      if n = 0 then s.hart.reservation
      else s.hart.reservation.check addr }
  jctx : ref.jctx = { s.jctx with
    pageVerionBitmap := Function.update
      s.jctx.pageVerionBitmap (pageIndex addr)
      (s.jctx.pageVerionBitmap (pageIndex addr) +
        BitVec.ofNat 64 n) }

theorem MemoryMap.setRam_ram
    {m : MemoryMap}
    {r : MemoryRegion}
    (h : m.ram = .ok r) :
    m.setRam r = m := by
  rcases MemoryMap.ram_eq_ok_iff.mp h with ⟨i, hDirect, hGet⟩
  rcases List.getElem?_eq_some_iff.mp hGet with ⟨hLt, hEq⟩
  unfold MemoryMap.setRam
  rw [hDirect]
  dsimp only
  rw [← hEq, List.set_getElem_self hLt, ← hDirect]

/- One store of a zero byte to RAM. -/
theorem State.mmioWrite_zero
    {P : Platform σ}
    {s : State σ}
    {r : MemoryRegion}
    (hRam : s.mem.RamIs r)
    (hSize : r.size = P.memsize)
    {addr : BitVec 64}
    (hLo : 2 ^ 31 ≤ addr.toNat)
    (hHi : addr.toNat < 2 ^ 31 + P.memsize.toNat)
    (hPage : pageIndex addr < s.jctx.pages) :
    ∃ ref, s.mmioWrite P addr .Byte 0 =
        .ok (⟨true, 0, 0⟩, ref) ∧
      ZeroedBytes s ref r addr 1 := by
  have hMem := P.memsize_lt
  have hByte : MemorySize.Byte.bytes = 1 := rfl
  have hDram : takesDram P addr .Byte := by
    rw [takesDram_iff P addr .Byte (by omega)]
    omega
  have hStore := MemoryMap.store_ram hRam
    (by rw [hSize]; exact hMem) addr .Byte hLo
    (by rw [hSize]; omega) 0
  have hData : scatterLe r.data (addr - 0x80000000).toNat
      MemorySize.Byte.bytes 0 =
      r.data.zeroed (addr - 0x80000000).toNat 1 :=
    Bytes.zeroed_one r.data _
  rw [hData] at hStore
  simp only [mmioWrite, if_pos hDram, amoCheckReservation,
    setHart, hStore, JitContext.bumpPage_eq _ _ hPage, bind,
    Except.bind]
  refine ⟨_, rfl, ?_⟩
  constructor <;> rfl

/- The rest of a range that lies in one page. -/
theorem offset_succ_le
    (off n : Nat)
    (h : off % 4096 + (n + 2) ≤ 4096) :
    (off + 1) % 4096 + (n + 1) ≤ 4096 := by
  rw [Nat.add_mod, Nat.mod_eq_of_lt] <;> omega

/- A run of stores to bytes of one page. -/
theorem zeroBytes_ram
    {P : Platform σ}
    (n : Nat) :
    ∀ {s : State σ} {r : MemoryRegion} {addr : BitVec 64},
      s.mem.RamIs r →
      r.size = P.memsize →
      2 ^ 31 ≤ addr.toNat →
      addr.toNat + n ≤ 2 ^ 31 + P.memsize.toNat →
      (addr.toNat - 2 ^ 31) % 4096 + n ≤ 4096 →
      pageIndex addr < s.jctx.pages →
      ∃ ref, zeroBytes P addr n s = .ok ref ∧
        ZeroedBytes s ref r addr n := by
  induction n with
  | zero =>
      intro s r addr hRam hSize hLo hHi hIn hPage
      refine ⟨s, rfl, ?_, rfl, rfl, ?_⟩
      · rw [Bytes.zeroed_zero]
        exact (MemoryMap.setRam_ram hRam.ram).symm
      · rw [BitVec.add_zero, Function.update_eq_self]
  | succ n ih =>
      intro s r addr hRam hSize hLo hHi hIn hPage
      have hMem := P.memsize_lt
      rcases State.mmioWrite_zero hRam hSize hLo (by omega)
        hPage with ⟨s₁, hWrite, hFirst⟩
      have hNext : (addr + 1).toNat = addr.toNat + 1 := by
        rw [BitVec.toNat_add]
        have hOne : (1 : BitVec 64).toNat = 1 := rfl
        omega
      have hRam₁ : s₁.mem.RamIs { r with
          data := r.data.zeroed
            (addr - 0x80000000).toNat 1 } := by
        rw [hFirst.mem]
        exact ⟨MemoryMap.ram_setRam hRam.ram _, hRam.base⟩
      cases n with
      | zero =>
          refine ⟨s₁, ?_, hFirst⟩
          exact bind_eq_ok.mpr ⟨_, hWrite, rfl⟩
      | succ n =>
          have hLo₁ : 2 ^ 31 ≤ (addr + 1).toNat := by
            omega
          -- the next byte lies in the same page
          have hSame : pageIndex (addr + 1) =
              pageIndex addr := by
            rw [pageIndex_eq _ hLo, pageIndex_eq _ hLo₁,
              hNext]
            omega
          have hPage₁ : pageIndex (addr + 1) <
              s₁.jctx.pages := by
            rw [hSame, hFirst.jctx]
            exact hPage
          have hHi₁ : (addr + 1).toNat + (n + 1) ≤
              2 ^ 31 + P.memsize.toNat := by
            omega
          have hIn₁ : ((addr + 1).toNat - 2 ^ 31) % 4096 +
              (n + 1) ≤ 4096 := by
            rw [hNext, Nat.sub_add_comm hLo]
            exact (offset_succ_le _ _ hIn)
          rcases ih hRam₁ hSize hLo₁ hHi₁ hIn₁ hPage₁ with
            ⟨ref, hRest, hEnd⟩
          refine ⟨ref, ?_, ?_, ?_, ?_, ?_⟩
          · exact bind_eq_ok.mpr ⟨_, hWrite, hRest⟩
          · have hOff : (addr + 1 - 0x80000000).toNat =
                (addr - 0x80000000).toNat + 1 := by
              rw [toNat_ramOffset _ hLo,
                toNat_ramOffset _ hLo₁]
              omega
            rw [hEnd.mem, hFirst.mem,
              MemoryMap.setRam_setRam, hOff]
            dsimp only
            rw [Bytes.zeroed_zeroed, Nat.add_comm 1]
          · rw [hEnd.world, hFirst.world]
          · rw [hEnd.hart, hFirst.hart]
            simp only [Nat.add_eq_zero_iff, one_ne_zero,
              and_false, if_false]
            rw [Reservation.check_check]
            rw [BitVec.le_def, hNext]
            omega
          · rw [hEnd.jctx, hFirst.jctx]
            simp only [hSame, Function.update_self,
              Function.update_idem]
            rw [BitVec.add_assoc]
            congr 3
            rw [← BitVec.ofNat_add]
            congr 1
            omega

end RiscvEm

------------------------------------------------------------
-- The Instruction
------------------------------------------------------------

namespace RiscvEm

variable {σ : Type}
variable {P : Platform σ}
variable {d : InstructionData}
variable {s : State σ}

/- The state after the `memset`. -/
def State.zeroedBlock
    (s : State σ)
    (r : MemoryRegion)
    (block : BitVec 64) : State σ :=
  { s with mem := s.mem.setRam { r with
      data := r.data.zeroed (block - 0x80000000).toNat 64 }
    }.log (.store s.self .cboZero block 64)

theorem fastPath_iff
    (block : BitVec 64) :
    0x80000000 ≤ block ↔ 2 ^ 31 ≤ block.toNat :=
  BitVec.le_def

theorem zeroBlock_fast
    {r : MemoryRegion}
    (hRam : s.mem.ram = .ok r)
    (hSize : r.size = P.memsize)
    {block : BitVec 64}
    (hLo : 2 ^ 31 ≤ block.toNat) :
    zeroBlock P block s =
      if block.toNat + 64 ≤ 2 ^ 31 + P.memsize.toNat then
        .ok (s.zeroedBlock r block)
      else
        .error .outOfBounds := by
  have hOff := toNat_ramOffset block hLo
  unfold zeroBlock MemoryMap.zeroRam
  rw [if_pos ((fastPath_iff block).mpr hLo), hRam]
  simp only [bind, Except.bind]
  rw [← hSize]
  by_cases hIn : block.toNat + 64 ≤ 2 ^ 31 + r.size.toNat
  · rw [if_pos hIn, if_pos (by omega)]
    rfl
  · rw [if_neg hIn, if_neg (by omega)]

theorem execcbo_zero_inside
    {r : MemoryRegion}
    (hRam : s.mem.ram = .ok r)
    (hSize : r.size = P.memsize)
    (hIn : BlockInRam P (cboBlock (s.gpr d.rs1))) :
    execcbo_zero P d s =
      .ok (.next 4,
        s.zeroedBlock r (cboBlock (s.gpr d.rs1))) := by
  apply bind_eq_ok.mpr
  refine ⟨_, ?_, rfl⟩
  exact (zeroBlock_fast hRam hSize hIn.1).trans
    (if_pos hIn.2)

theorem execcbo_zero_outside
    (hWf : s.Wf P)
    (hLo : 2 ^ 31 ≤ (cboBlock (s.gpr d.rs1)).toNat)
    (hOut : ¬ BlockInRam P (cboBlock (s.gpr d.rs1))) :
    execcbo_zero P d s = .error .outOfBounds := by
  rcases hWf.ramIs with ⟨r, hRam, hSize⟩
  have hZero : zeroBlock P (cboBlock (s.gpr d.rs1)) s =
      .error .outOfBounds := by
    rw [zeroBlock_fast hRam.ram hSize hLo, if_neg]
    intro hHi
    exact hOut ⟨hLo, hHi⟩
  unfold execcbo_zero
  change (zeroBlock P (cboBlock (s.gpr d.rs1)) s >>= _) = _
  rw [hZero]
  rfl

theorem execcbo_zero_below
    (hLo : ¬ 2 ^ 31 ≤ (cboBlock (s.gpr d.rs1)).toNat) :
    execcbo_zero P d s =
      (zeroBytes P (cboBlock (s.gpr d.rs1)) 64 s >>=
        fun s => .ok (.next 4, s)) := by
  unfold execcbo_zero zeroBlock
  change ((if 0x80000000 ≤ cboBlock (s.gpr d.rs1) then _
    else _) >>= _) = _
  rw [if_neg (mt (fastPath_iff _).mp hLo)]
  rfl

/- The instruction never reports a fault. -/
theorem execcbo_zero_success
    {out : ExecReturn}
    {s' : State σ}
    (h : execcbo_zero P d s = .ok (out, s')) :
    out = .next 4 := by
  rcases bind_eq_ok.mp h with ⟨s₁, -, hEq⟩
  injection hEq with hEq
  exact (congrArg Prod.fst hEq).symm

/- A block of RAM can be written byte by byte. -/
theorem BlockInRam.writable
    {block : BitVec 64}
    (h : BlockInRam P block) :
    BlockWritable P block := by
  intro i hi
  have hMem := P.memsize_lt
  have hByte : MemorySize.Byte.bytes = 1 := rfl
  unfold BlockInRam at h
  have hNat : (block + BitVec.ofNat 64 i).toNat =
      block.toNat + i := by
    rw [BitVec.toNat_add, BitVec.toNat_ofNat]
    omega
  apply Or.inl
  rw [takesDram_iff _ _ _ (by omega)]
  omega

/- Nothing is stored if the page is not counted. -/
theorem zeroBytes_uncounted
    {block : BitVec 64}
    (hIn : BlockInRam P block)
    (hPage : ¬ pageIndex block < s.jctx.pages)
    (ref : State σ) :
    zeroBytes P block 64 s ≠ .ok ref := by
  intro h
  rcases bind_eq_ok.mp h with ⟨⟨m, s₁⟩, hWrite, -⟩
  have hMem := P.memsize_lt
  have hByte : MemorySize.Byte.bytes = 1 := rfl
  have hDram : takesDram P block .Byte := by
    unfold BlockInRam at hIn
    rw [takesDram_iff _ _ _ (by omega)]
    omega
  have hBump : s.jctx.bumpPage block = .error .outOfBounds :=
    if_neg hPage
  unfold State.mmioWrite at hWrite
  rw [if_pos hDram] at hWrite
  rcases bind_eq_ok.mp hWrite with ⟨mem, -, hWrite⟩
  rcases bind_eq_ok.mp hWrite with ⟨jctx, hOk, -⟩
  cases hBump.symm.trans hOk

/- In RAM, the stores and the `memset` differ in two ways. -/
theorem sameStores_zeroedBlock_iff
    {r : MemoryRegion}
    {ref : State σ}
    {block : BitVec 64}
    (hRef : ZeroedBytes s ref r block 64) :
    SameStores (s.zeroedBlock r block) ref ↔
      s.hart.reservation.check block = s.hart.reservation ∧
        ∀ i, s.jctx.Live i →
          pageIndex (s.jctx.jits i).pc ≠ pageIndex block := by
  have hHart : ref.hart = { s.hart with
      reservation := s.hart.reservation.check block } :=
    hRef.hart
  -- a version that 64 stores have counted is another one
  have hNe (v : BitVec 64) : v ≠ v + BitVec.ofNat 64 64 := by
    intro h
    have hNat := congrArg BitVec.toNat h
    rw [BitVec.toNat_add, BitVec.toNat_ofNat] at hNat
    omega
  constructor
  · intro h
    constructor
    · have hEq : s.hart = ref.hart := h.hart
      rw [hHart] at hEq
      exact (congrArg Hart.reservation hEq).symm
    · intro i hLive hAt
      rcases h.live i hLive with ⟨-, hCurrent⟩
      rw [hRef.jctx] at hCurrent
      dsimp only at hCurrent
      rw [hLive.2, hAt, Function.update_self] at hCurrent
      exact hNe _ hCurrent
  · rintro ⟨hCheck, hFree⟩
    constructor
    · exact hRef.mem.symm
    · exact hRef.world.symm
    · rw [hHart, hCheck]
      rfl
    · intro i hLive
      rw [hRef.jctx]
      refine ⟨hLive.1, ?_⟩
      dsimp only
      rw [Function.update_of_ne (hFree i hLive)]
      exact hLive.2

/-
  The instruction is sixty-four stores exactly if the block
  is below RAM and writable, or if it lies in RAM and stores
  to it would neither end the reservation nor invalidate
  compiled code.
-/
theorem cbo_zero_is_stores_iff
    (P : Platform σ)
    (d : InstructionData)
    (s : State σ)
    (hWf : s.Wf P) :
    CboZeroIsStores P d s ↔
      CboZeroOk P s (cboBlock (s.gpr d.rs1)) := by
  have hAligned := cboBlock_aligned (s.gpr d.rs1)
  unfold CboZeroOk
  by_cases hLo : 2 ^ 31 ≤ (cboBlock (s.gpr d.rs1)).toNat
  · rw [if_pos hLo]
    by_cases hIn : BlockInRam P (cboBlock (s.gpr d.rs1))
    · rcases hWf.ramIs with ⟨r, hRam, hSize⟩
      have hExec := execcbo_zero_inside (d := d) hRam.ram
        hSize hIn
      have hRun := zeroBytes_ram (P := P) (s := s) 64 hRam
        hSize hLo hIn.2 (by omega)
      constructor
      · intro h
        refine ⟨hIn, fun hPage => ?_⟩
        rcases hRun hPage with ⟨ref, hStores, hRef⟩
        rcases h.stores hIn.writable ref hStores with
          ⟨s', hOk, hSame⟩
        have hEnd : s.zeroedBlock r
            (cboBlock (s.gpr d.rs1)) = s' :=
          congrArg Prod.snd
            (Except.ok.inj (hExec.symm.trans hOk))
        rw [← hEnd] at hSame
        exact (sameStores_zeroedBlock_iff hRef).mp hSame
      · rintro ⟨-, hFree⟩
        constructor
        · intro hAbove hError
          cases hExec.symm.trans hError
        · intro r' hRam' hInside
          cases hRam.ram.symm.trans hRam'
          exact ⟨_, _, hExec, rfl⟩
        · intro hWritable ref hStores
          by_cases hPage : pageIndex
              (cboBlock (s.gpr d.rs1)) < s.jctx.pages
          · rcases hRun hPage with ⟨ref', hStores', hRef⟩
            rcases Except.ok.inj (hStores'.symm.trans hStores)
            exact ⟨_, hExec,
              (sameStores_zeroedBlock_iff hRef).mpr
                (hFree hPage)⟩
          · exact absurd hStores
              (zeroBytes_uncounted hIn hPage ref)
        · intro hNot
          exact absurd hIn.writable hNot
    · constructor
      · intro h
        exact absurd (execcbo_zero_outside hWf hLo hIn)
          (h.inside hLo)
      · intro h
        exact absurd h.1 hIn
  · rw [if_neg hLo]
    constructor
    · intro h
      by_contra hNot
      rcases h.fault hNot with ⟨n, tval, s', hExec⟩
      cases execcbo_zero_success hExec
    · intro hWritable
      constructor
      · intro hAbove
        exact absurd hAbove hLo
      · intro r hRam hIn
        exact absurd hIn.1 hLo
      · intro hBlock ref hStores
        refine ⟨ref, ?_, rfl, rfl, rfl, fun i hLive => hLive⟩
        rw [execcbo_zero_below hLo, hStores]
        rfl
      · intro hNot
        exact absurd hWritable hNot

/- `cbo.zero (a1)`. -/
def cboZeroA1 : InstructionData :=
  { inst := 0x0045A00F
    rs1 := 11
    rs2 := 4
    rd := 0
    imm := 4
    rs3 := 0
    rm := 2 }

/- After a reset, the block below the device tree. -/
theorem cbo_zero_is_stores_boot :
    CboZeroIsStores Platform.bare cboZeroA1
      ((State.boot []).setGpr 11 0x800DFFC0) := by
  apply (cbo_zero_is_stores_iff Platform.bare cboZeroA1 _
    (State.boot_wf.setGpr _ _)).mpr
  have hBlock : cboBlock (((State.boot []).setGpr 11
      0x800DFFC0).gpr cboZeroA1.rs1) = 0x800DFFC0 := by
    decide
  rw [hBlock]
  unfold CboZeroOk BlockInRam
  rw [if_pos (by decide)]
  refine ⟨by decide, fun _ => ⟨rfl, fun i hLive => ?_⟩⟩
  cases hLive.1

/- Behind RAM, bytes outside of the array are written. -/
theorem cbo_zero_behind_ram :
    ((State.boot []).setGpr 11 0x80100000).Wf
        Platform.bare ∧
      ¬ CboZeroIsStores Platform.bare cboZeroA1
        ((State.boot []).setGpr 11 0x80100000) := by
  refine ⟨State.boot_wf.setGpr _ _, fun h => ?_⟩
  have hBlock : cboBlock (((State.boot []).setGpr 11
      0x80100000).gpr cboZeroA1.rs1) = 0x80100000 := by
    decide
  apply h.inside
  · rw [hBlock]
    decide
  · apply execcbo_zero_outside (State.boot_wf.setGpr _ _)
    · rw [hBlock]
      decide
    · rw [hBlock]
      unfold BlockInRam
      decide

end RiscvEm
