import StyleShield.Fault

/-! Codecs by name. A codec is whatever reads bytes as text and writes text as bytes; what it
writes it need not read back. A file names its codec, and a registry says which one that is. -/
namespace StyleShield

structure Codec where
  read : Bytes → Except Encoding.Failure Text
  /-- Reading that puts the replacement character for what cannot be read. -/
  readLossy : Bytes → Except Encoding.Failure Text
  write : Text → Except Encoding.Failure Bytes

namespace Codec

def decode (c : Codec) (b : Bytes) : Except Fault Text := (c.read b).mapError .encoding

def decodeLossy (c : Codec) (b : Bytes) : Except Fault Text := (c.readLossy b).mapError .encoding

def encode (c : Codec) (s : Text) : Except Fault Bytes := (c.write s).mapError .encoding

/-- What the codec writes for the text, if anything, it reads as the text. -/
def ReadsBack (c : Codec) (s : Text) : Prop := ∀ b, c.encode s = .ok b → c.decode b = .ok s

/-- A codec whose only faults are bytes that are no text and texts without bytes. -/
def strict (read : Bytes → Option Text) (lossy : Bytes → Text) (write : Text → Option Bytes) : Codec where
  read b := (read b).elim (.error .undecodable) .ok
  readLossy b := .ok (lossy b)
  write s := (write s).elim (.error .unencodable) .ok

open Encoding

def utf8 : Codec := strict utf8Text? utf8Lossy (some ∘ utf8Bytes)

/-- UTF-8 behind a mark, which may be missing where it is read. -/
def utf8Signed : Codec :=
  strict (utf8Text? ∘ dropMark) (utf8Lossy ∘ dropMark) fun s => some (byteOrderMark ++ utf8Bytes s)

def latin1 : Codec :=
  strict (narrowText? 256) (List.map fun x => Char.ofNat x.toNat) (narrowBytes? 256)

def ascii : Codec :=
  strict (narrowText? 128) (List.map fun x => if x < 0x80 then Char.ofNat x.toNat else replacement)
    (narrowBytes? 128)

def utf16LittleEndian : Codec :=
  strict (allRead ∘ utf16Marks) (fun b => (utf16Marks b).map (·.getD replacement))
    fun s => some (s.flatMap utf16CharBytes)

/-- Latin-1 with escapes for all other characters. An escape for half of a surrogate pair is no text
here, since a text has whole characters only. -/
def rawEscape : Codec :=
  strict (allRead ∘ escapeMarks .plain) (fun b => (escapeMarks .plain b).map (·.getD replacement))
    fun s => some (s.flatMap escapeBytes)

/-- No codec bears the name. No bytes are the empty text all the same. -/
def unknown : Codec :=
  let read (b : Bytes) : Except Encoding.Failure Text := if b = [] then .ok [] else .error .unknownEncoding
  ⟨read, read, fun _ => .error .unknownEncoding⟩

def utf8Name : Text := "utf-8".toList

end Codec

/-- The codec that each name stands for. UTF-8 is always there. -/
structure Codecs where
  named : Text → Codec
  named_utf8 : named Codec.utf8Name = Codec.utf8

attribute [simp] Codecs.named_utf8

def Codecs.usual : Codecs where
  named name :=
    if name = Codec.utf8Name then .utf8
    else if name = "utf-8-sig".toList then .utf8Signed
    else if name = "latin-1".toList then .latin1
    else if name = "ascii".toList then .ascii
    else if name = "utf-16-le".toList then .utf16LittleEndian
    else if name = "raw_unicode_escape".toList then .rawEscape
    else .unknown
  named_utf8 := if_pos rfl

end StyleShield
