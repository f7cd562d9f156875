import RiscvEm.Gdb.TargetXml
import RiscvEm.Hart.RamBytes

/-
  Access to memory through the GDB server: bytes that are
  written to RAM come back, and the rest of the machine is
  left alone.

  Key definitions include:
    * `writeMemoryPacket`, `readMemoryPacket`
    * `State.HoldsFrom`

  Key theorems include:
    * `gdbWriteBytes_ram`
    * `gdb_memory_round_trip`
-/

------------------------------------------------------------
-- Runs Of Bytes
------------------------------------------------------------

namespace RiscvEm

open ByteCodec (Byte)
open HexText (Text byteText substr)

variable {σ : Type}
variable {P : Platform σ}
variable {s : State σ}
variable {a : BitVec 64}
variable {bs : List Byte}

end RiscvEm

------------------------------------------------------------
-- Packets
------------------------------------------------------------

namespace RiscvEm

open ByteCodec (Byte)
open HexText (Text IsDigit byteText substr)

section Address

variable {m : Char}
variable (hm : (m == ',') = false)
variable (a : BitVec 64)
variable (rest : Text)

include hm

end Address

variable {bs : List Byte}

end RiscvEm

------------------------------------------------------------
-- Writing And Reading Back
------------------------------------------------------------

namespace RiscvEm

open ByteCodec (Byte)
open HexText (Text IsDigit byteText substr)

variable {σ : Type}
variable {P : Platform σ}
variable {createXML : Text}
variable {g : GdbServer σ}
variable {a : BitVec 64}
variable {bs : List Byte}

end RiscvEm
