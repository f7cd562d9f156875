import Mathlib.Data.Finset.Basic
import RiscvEm.Gdb.Registers
import RiscvEm.Gdb.Server

/-
  Sessions of the GDB server: its list of breakpoints is the
  set that the packets describe.

  Key definitions include:
    * `breakStep`
    * `BreakAnswer`

  Key theorems include `gdb_breakpoints_are_set`.
-/

------------------------------------------------------------
-- Breakpoints As A Set
------------------------------------------------------------

namespace RiscvEm

open HexText (Text)

/- The packet in what was received. -/
def receivedPacket
    (buffer : Text) : Option Text :=
  match buffer with
  | '$' :: _ => some (gdbUnformatPacket buffer)
  | '-' :: '$' :: rest => some (gdbUnformatPacket ('$' :: rest))
  | '+' :: '$' :: rest => some (gdbUnformatPacket ('$' :: rest))
  | _ => none

/- A breakpoint is to be set or cleared. -/
inductive BreakOp where
  | set (addr : BitVec 64)
  | clear (addr : BitVec 64)
  deriving DecidableEq

/- What a packet asks for, if it is about breakpoints. -/
def breakOp
    (packet : Text) : Option BreakOp :=
  match packet with
  | 'Z' :: '0' :: _ =>
      (gdbBreakAddress packet).toOption.map .set
  | 'z' :: '0' :: _ =>
      (gdbBreakAddress packet).toOption.map .clear
  | _ => none

/- The set after an operation. -/
def BreakOp.apply
    (set : Finset (BitVec 64)) : BreakOp → Finset (BitVec 64)
  | .set addr => insert addr set
  | .clear addr => set.erase addr

/- The breakpoints after something was received. -/
def breakStep
    (set : Finset (BitVec 64))
    (buffer : Text) : Finset (BitVec 64) :=
  match (receivedPacket buffer).bind breakOp with
  | some op => op.apply set
  | none => set

/- The breakpoints after all this was received. -/
def breaksAfter
    (buffers : List Text) : Finset (BitVec 64) :=
  buffers.foldl breakStep ∅

/- The operation changes the set. -/
def BreakOp.Changes
    (set : Finset (BitVec 64)) : BreakOp → Prop
  | .set addr => addr ∉ set
  | .clear addr => addr ∈ set

instance
    (set : Finset (BitVec 64))
    (op : BreakOp) :
    Decidable (op.Changes set) :=
  match op with
  | .set addr => inferInstanceAs (Decidable (addr ∉ set))
  | .clear addr => inferInstanceAs (Decidable (addr ∈ set))

end RiscvEm

------------------------------------------------------------
-- Packets About Other Things
------------------------------------------------------------

namespace RiscvEm

open HexText (Text)

variable {σ : Type}
variable {P : Platform σ}
variable {createXML packet : Text}
variable {g g' : GdbServer σ}
variable {sent : List Text}

/- `Z0` sets a breakpoint. -/
theorem gdbServe_set
    (rest : Text) :
    gdbServe P createXML ('Z' :: '0' :: rest) g =
      gdbSetBreak ('Z' :: '0' :: rest) g :=
  rfl

/- `z0` clears a breakpoint. -/
theorem gdbServe_clear
    (rest : Text) :
    gdbServe P createXML ('z' :: '0' :: rest) g =
      gdbClearBreak ('z' :: '0' :: rest) g :=
  rfl

/- All others leave the breakpoints alone. -/
theorem gdbServe_bp
    (hPacket : ¬ AboutBreak packet)
    (h : gdbServe P createXML packet g = .ok (sent, g')) :
    g'.bp = g.bp := by
  cases gdbServe_served sent g' h with
  | breaks bp hAbout => exact absurd hAbout hPacket
  | same | xml | hart | step | goOn | kill => rfl

end RiscvEm

------------------------------------------------------------
-- One Packet
------------------------------------------------------------

namespace RiscvEm

open HexText (Text)

variable {σ : Type}
variable {P : Platform σ}
variable {createXML packet buffer : Text}
variable {g g' : GdbServer σ}
variable {sent : List Text}
variable {set : Finset (BitVec 64)}

/- The list holds each element of the set once. -/
structure ListsBreaks
    (bp : List (BitVec 64))
    (set : Finset (BitVec 64)) : Prop where
  nodup : bp.Nodup
  mem : ∀ addr, addr ∈ bp ↔ addr ∈ set

/- A new address is listed once. -/
theorem ListsBreaks.insert
    {bp : List (BitVec 64)}
    {addr : BitVec 64}
    (h : ListsBreaks bp set)
    (hNew : addr ∉ bp) :
    ListsBreaks (bp ++ [addr]) (insert addr set) := by
  constructor
  · rw [List.nodup_append]
    refine ⟨h.nodup, List.nodup_singleton addr, ?_⟩
    intro a ha b hb hEq
    rw [List.mem_singleton.mp hb] at hEq
    rw [hEq] at ha
    exact hNew ha
  · intro a
    rw [List.mem_append, List.mem_singleton, h.mem,
      Finset.mem_insert, or_comm]

/- An address removed is listed no more. -/
theorem ListsBreaks.erase
    {bp : List (BitVec 64)}
    (h : ListsBreaks bp set)
    (addr : BitVec 64) :
    ListsBreaks (bp.erase addr) (set.erase addr) := by
  constructor
  · exact h.nodup.erase addr
  · intro a
    rw [h.nodup.mem_erase_iff, h.mem, Finset.mem_erase]

/- What is sent for an operation. -/
def breakReply
    (set : Finset (BitVec 64))
    (op : BreakOp) : List Text :=
  [gdbSendPacket
    (if op.Changes set then "OK" else "E01").toList]

/- Packets that change the set are answered by `OK`. -/
theorem breakReply_of_changes
    (op : BreakOp)
    (h : op.Changes set) :
    breakReply set op = [gdbSendPacket "OK".toList] := by
  unfold breakReply
  rw [if_pos h]

/- Packets that change nothing are answered by an error. -/
theorem breakReply_of_not
    (op : BreakOp)
    (h : ¬ op.Changes set) :
    breakReply set op = [gdbSendPacket "E01".toList] := by
  unfold breakReply
  rw [if_neg h]

/- What a whole packet does to the set. -/
theorem breakStep_of_packet
    (h : receivedPacket buffer = some packet) :
    breakStep set buffer =
      match breakOp packet with
      | some op => op.apply set
      | none => set := by
  unfold breakStep
  rw [h, Option.bind_some]

/- Setting a breakpoint. -/
theorem gdbSetBreak_refines
    (hSet : ListsBreaks g.bp set)
    (h : gdbSetBreak packet g = .ok (sent, g')) :
    ∃ addr, gdbBreakAddress packet = .ok addr ∧
      ListsBreaks g'.bp ((BreakOp.set addr).apply set) ∧
      sent = breakReply set (.set addr) := by
  rcases bind_eq_ok.mp h with ⟨addr, hAddr, hDone⟩
  refine ⟨addr, hAddr, ?_⟩
  split at hDone
  case isTrue hIn =>
    cases hDone
    rw [hSet.mem] at hIn
    have hSame : (BreakOp.set addr).apply set = set :=
      Finset.insert_eq_of_mem hIn
    rw [hSame]
    exact ⟨hSet,
      (breakReply_of_not (.set addr)
        (not_not.mpr hIn)).symm⟩
  case isFalse hNew =>
    cases hDone
    have hOut : addr ∉ set := fun hIn =>
      hNew ((hSet.mem addr).mpr hIn)
    exact ⟨hSet.insert hNew,
      (breakReply_of_changes (.set addr) hOut).symm⟩

/- Clearing a breakpoint. -/
theorem gdbClearBreak_refines
    (hSet : ListsBreaks g.bp set)
    (h : gdbClearBreak packet g = .ok (sent, g')) :
    ∃ addr, gdbBreakAddress packet = .ok addr ∧
      ListsBreaks g'.bp ((BreakOp.clear addr).apply set) ∧
      sent = breakReply set (.clear addr) := by
  rcases bind_eq_ok.mp h with ⟨addr, hAddr, hDone⟩
  refine ⟨addr, hAddr, ?_⟩
  split at hDone
  case isTrue hIn =>
    cases hDone
    exact ⟨hSet.erase addr,
      (breakReply_of_changes (.clear addr)
        ((hSet.mem addr).mp hIn)).symm⟩
  case isFalse hNone =>
    cases hDone
    have hOut : addr ∉ set := fun hIn =>
      hNone ((hSet.mem addr).mpr hIn)
    have hSame : (BreakOp.clear addr).apply set = set :=
      Finset.erase_eq_of_notMem hOut
    rw [hSame]
    exact ⟨hSet, (breakReply_of_not (.clear addr) hOut).symm⟩

/- A packet does to the list what it asks for. -/
theorem gdbServe_refines
    (hSet : ListsBreaks g.bp set)
    (h : gdbServe P createXML packet g = .ok (sent, g')) :
    match breakOp packet with
    | some op =>
        ListsBreaks g'.bp (op.apply set) ∧
          sent = breakReply set op
    | none => ListsBreaks g'.bp set := by
  by_cases hZ : ∃ rest, packet = 'Z' :: '0' :: rest
  · rcases hZ with ⟨rest, rfl⟩
    rw [gdbServe_set] at h
    rcases gdbSetBreak_refines hSet h with
      ⟨addr, hAddr, hDone⟩
    unfold breakOp
    rw [hAddr]
    exact hDone
  · by_cases hz : ∃ rest, packet = 'z' :: '0' :: rest
    · rcases hz with ⟨rest, rfl⟩
      rw [gdbServe_clear] at h
      rcases gdbClearBreak_refines hSet h with
        ⟨addr, hAddr, hDone⟩
      unfold breakOp
      rw [hAddr]
      exact hDone
    · have hNone : breakOp packet = none := by
        unfold breakOp
        split
        · exact absurd ⟨_, rfl⟩ hZ
        · exact absurd ⟨_, rfl⟩ hz
        · rfl
      rw [hNone]
      dsimp only
      have hOther : ¬ AboutBreak packet := by
        rintro ⟨rest, hEq | hEq⟩
        · exact hZ ⟨rest, hEq⟩
        · exact hz ⟨rest, hEq⟩
      rw [gdbServe_bp hOther h]
      exact hSet

/- What is sent for what was received. -/
def BreakAnswer
    (set : Finset (BitVec 64))
    (buffer : Text)
    (sent : List Text) : Prop :=
  ∀ op, (receivedPacket buffer).bind breakOp = some op →
    sent = ['+'] :: breakReply set op

/- Handling a packet refines what it does to the set. -/
theorem gdbHandle_refines
    (hSet : ListsBreaks g.bp set)
    (hPacket : receivedPacket buffer =
      some (gdbUnformatPacket packet))
    (h : gdbHandle P createXML packet g = .ok (sent, g')) :
    ListsBreaks g'.bp (breakStep set buffer) ∧
      BreakAnswer set buffer sent := by
  rcases bind_eq_ok.mp h with ⟨⟨texts, g₁⟩, hServe, hEq⟩
  cases hEq
  have hDone := gdbServe_refines hSet hServe
  rw [breakStep_of_packet hPacket]
  unfold BreakAnswer
  rw [hPacket, Option.bind_some]
  cases hOp : breakOp (gdbUnformatPacket packet) with
  | none =>
      rw [hOp] at hDone
      exact ⟨hDone, nofun⟩
  | some op =>
      rw [hOp] at hDone
      refine ⟨hDone.1, ?_⟩
      intro op' hEq
      cases hEq
      rw [hDone.2]

/- Receiving a packet refines what it does to the set. -/
theorem gdbReceive_refines
    (hSet : ListsBreaks g.bp set)
    (h : gdbReceive P createXML buffer g = .ok (sent, g')) :
    ListsBreaks g'.bp (breakStep set buffer) ∧
      BreakAnswer set buffer sent := by
  have hOther : receivedPacket buffer = none →
      g'.bp = g.bp →
      ListsBreaks g'.bp (breakStep set buffer) ∧
        BreakAnswer set buffer sent := by
    intro hNone hBp
    unfold breakStep BreakAnswer
    rw [hNone, hBp]
    exact ⟨hSet, nofun⟩
  unfold gdbReceive at h
  split at h
  · rcases bind_eq_ok.mp h with ⟨str, hStr, hHandle⟩
    rw [bufferText_eq_ok hStr] at hHandle
    exact gdbHandle_refines hSet rfl hHandle
  · cases h
    exact hOther rfl rfl
  · rcases bind_eq_ok.mp h with ⟨str, hStr, hHandle⟩
    rw [bufferText_eq_ok hStr] at hHandle
    exact gdbHandle_refines hSet rfl hHandle
  · rcases bind_eq_ok.mp h with ⟨str, hStr, hHandle⟩
    rw [bufferText_eq_ok hStr] at hHandle
    exact gdbHandle_refines hSet rfl hHandle
  · cases h
    rename_i hDollar hInterrupt hMinus hPlus
    refine hOther ?_ rfl
    unfold receivedPacket
    split
    · exact absurd rfl (hDollar _)
    · exact absurd rfl (hMinus _)
    · exact absurd rfl (hPlus _)
    · rfl

end RiscvEm

------------------------------------------------------------
-- Sessions
------------------------------------------------------------

namespace RiscvEm

open HexText (Text)

variable {σ : Type}

/- The same from any list of breakpoints. -/
theorem gdbSession_refines
    {P : Platform σ}
    {createXML : Text}
    {buffers : List Text}
    {g g' : GdbServer σ}
    {answers : List (List Text)}
    {set : Finset (BitVec 64)}
    (hSet : ListsBreaks g.bp set)
    (h : gdbSession P createXML buffers g =
      .ok (answers, g')) :
    ListsBreaks g'.bp ((buffers.take answers.length).foldl
        breakStep set) ∧
      ∀ i (hi : i < answers.length) buffer,
        buffers[i]? = some buffer →
          BreakAnswer ((buffers.take i).foldl breakStep set)
            buffer answers[i] := by
  induction buffers generalizing g answers set with
  | nil =>
      cases h
      exact ⟨hSet, nofun⟩
  | cons first rest ih =>
      unfold gdbSession at h
      split at h
      case isFalse =>
        cases h
        exact ⟨hSet, nofun⟩
      case isTrue =>
        rcases bind_eq_ok.mp h with ⟨⟨sent, g₁⟩, hFirst, h⟩
        rcases bind_eq_ok.mp h with ⟨⟨later, g₂⟩, hRest, hEq⟩
        cases hEq
        rcases gdbReceive_refines hSet hFirst with
          ⟨hNext, hAnswer⟩
        rcases ih hNext hRest with ⟨hLast, hAnswers⟩
        refine ⟨hLast, ?_⟩
        intro i hi buffer hGet
        cases i with
        | zero =>
            cases hGet
            exact hAnswer
        | succ i =>
            exact hAnswers i (Nat.lt_of_succ_lt_succ hi) buffer
              hGet

/-
  In a session of any packets, the list of breakpoints holds
  each element of the set that the packets so far describe
  once, and a packet about a breakpoint is answered by
  whether it changes that set.
-/
theorem gdb_breakpoints_are_set
    (P : Platform σ)
    (createXML : Text)
    (buffers : List Text)
    (g g' : GdbServer σ)
    (answers : List (List Text))
    (hStart : g.bp = [])
    (h : gdbSession P createXML buffers g =
      .ok (answers, g')) :
    g'.bp.Nodup ∧
      (∀ addr, addr ∈ g'.bp ↔
        addr ∈ breaksAfter (buffers.take answers.length)) ∧
      ∀ i (hi : i < answers.length) buffer,
        buffers[i]? = some buffer →
          BreakAnswer (breaksAfter (buffers.take i)) buffer
            answers[i] := by
  have hEmpty : ListsBreaks g.bp ∅ := by
    rw [hStart]
    exact ⟨List.nodup_nil, by simp⟩
  rcases gdbSession_refines hEmpty h with ⟨hList, hAnswers⟩
  exact ⟨hList.nodup, hList.mem, hAnswers⟩

/- `Z0` twice for one address and `z0` for another. -/
def breakPackets : List Text :=
  ["Z0,80000004,4", "Z0,80000004,4", "z0,80000008,4"].map
    fun text => gdbSendPacket text.toList

/- A session of three packets. -/
theorem gdb_breakpoints_of_three :
    ∃ answers g',
      gdbSession Platform.bare [] breakPackets
        (GdbServer.start (State.boot [])) =
          .ok (answers, g') ∧
      g'.bp.Nodup ∧ ∀ addr, addr ∈ g'.bp ↔
        addr ∈ breaksAfter
          (breakPackets.take answers.length) := by
  have hSession : ∃ out, gdbSession Platform.bare []
      breakPackets (GdbServer.start (State.boot [])) =
        .ok out := ⟨_, rfl⟩
  rcases hSession with ⟨⟨answers, g'⟩, hRun⟩
  have hList := gdb_breakpoints_are_set Platform.bare [] _ _ _
    _ rfl hRun
  exact ⟨answers, g', hRun, hList.1, hList.2.1⟩

end RiscvEm
