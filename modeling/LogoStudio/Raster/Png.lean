import LogoStudio.Raster.Basic

/-!
# PNG images

A raster as a PNG image with four channels of one byte. The rows are stored without
compression: a sequence of blocks that each hold at most 65535 bytes as they are.
-/
namespace LogoStudio.Png

/-- A 32-bit word, the most significant byte first. -/
def word (n : UInt32) : ByteArray :=
  ⟨#[(n >>> 24).toUInt8, (n >>> 16).toUInt8, (n >>> 8).toUInt8, n.toUInt8]⟩

/-- A 16-bit word, the least significant byte first. -/
def half (n : Nat) : ByteArray := ⟨#[UInt8.ofNat n, UInt8.ofNat (n / 256)]⟩

def crcBit (c : UInt32) : UInt32 :=
  if c &&& 1 = 1 then (c >>> 1) ^^^ 0xedb88320 else c >>> 1

def crcByte (c : UInt32) (b : UInt8) : UInt32 := Nat.repeat crcBit 8 (c ^^^ b.toUInt32)

/-- The cyclic redundancy check of some bytes. -/
def crc (bytes : ByteArray) : UInt32 := bytes.foldl crcByte 0xffffffff ^^^ 0xffffffff

/-- The two running sums of bytes, modulo 65521, in one word. -/
def checksum (bytes : ByteArray) : UInt32 :=
  let (a, b) := bytes.foldl (fun (a, b) byte =>
    let a := (a + byte.toUInt32) % 65521
    (a, (b + a) % 65521)) ((1, 0) : UInt32 × UInt32)
  b * 65536 + a

/-- A chunk: the length of its content, its name, its content and a check of both. -/
def chunk (name : String) (content : ByteArray) : ByteArray :=
  let body := name.toUTF8 ++ content
  word (UInt32.ofNat content.size) ++ body ++ word (crc body)

/-- The largest number of bytes in one block. -/
def blockSize : Nat := 65535

/-- Append `n + 1` blocks that hold the bytes from `start` on. -/
def storeFrom (bytes : ByteArray) : (n start : Nat) → ByteArray → ByteArray
  | n, start, out =>
      let size := min blockSize (bytes.size - start)
      let last : UInt8 := if n = 0 then 1 else 0
      let out := (out.push last ++ half size ++ half (blockSize - size)) ++
        bytes.extract start (start + size)
      match n with
      | 0 => out
      | n + 1 => storeFrom bytes n (start + size) out

/-- Some bytes as a compressed stream that compresses nothing. -/
def store (bytes : ByteArray) : ByteArray :=
  storeFrom bytes (bytes.size / blockSize) 0 ⟨#[0x78, 0x01]⟩ ++ word (checksum bytes)

/-- The rows of a raster, each after a byte that says it stands for itself. -/
def rows (r : Raster) : ByteArray :=
  (r.pixels.foldl (fun ((bytes, i) : ByteArray × Nat) p =>
    let bytes := if i % r.width = 0 then bytes.push 0 else bytes
    ((((bytes.push p.r).push p.g).push p.b).push p.a, i + 1)) (.empty, 0)).1

/-- The header of an image: its size, then eight bits in each of four channels. -/
def header (r : Raster) : ByteArray :=
  word (UInt32.ofNat r.width) ++ word (UInt32.ofNat r.height) ++ ⟨#[8, 6, 0, 0, 0]⟩

/-- The bytes every image starts with. -/
def signature : ByteArray := ⟨#[0x89, 0x50, 0x4e, 0x47, 0x0d, 0x0a, 0x1a, 0x0a]⟩

/-- A raster that is not empty as an image. -/
def encode (r : Raster) : ByteArray :=
  signature ++ chunk "IHDR" (header r) ++ chunk "IDAT" (store (rows r)) ++ chunk "IEND" .empty

end LogoStudio.Png
