import ArxRuna.Library.Aead
namespace ArxRuna.Pipeline.Exif
open Library.Aead

def isJpeg (bytes : Bytes) : Bool := [0xFF,0xD8].isPrefixOf bytes

def isPng (bytes : Bytes) : Bool := [0x89,0x50,0x4E,0x47,0x0D,0x0A,0x1A,0x0A].isPrefixOf bytes

def isImageMagic (bytes : Bytes) : Bool := isJpeg bytes || isPng bytes

def fromBeBytes (bytes : Bytes) : Nat := bytes.foldl (fun value byte => value * 256 + byte.toNat) 0

-- APP1, APP2 and APP13.
def droppedMarker (marker : UInt8) : Bool := marker = 0xE1 || marker = 0xE2 || marker = 0xED

def jpegSegments (rest : Bytes) : Bytes :=
  if rest.length ≤ 1 then [] else
    let marker := rest.getD 1 0
    let segEnd := 2 + fromBeBytes ((rest.drop 2).take 2)
    if rest.getD 0 0 ≠ 0xFF then rest
    else if marker = 0x00 then jpegSegments (rest.drop 1)
    else if marker = 0xD9 then [0xFF,marker]
    else if marker = 0xD8 ∨ (0xD0 ≤ marker ∧ marker ≤ 0xD7) then 0xFF :: marker :: jpegSegments (rest.drop 2)
    else if rest.length ≤ 3 ∨ rest.length < segEnd then []
    else
      -- past SOS the compressed stream has no segments
      let after := if marker = 0xDA then rest.drop segEnd else jpegSegments (rest.drop segEnd)
      if droppedMarker marker then after else rest.take segEnd ++ after
termination_by rest.length
decreasing_by all_goals (simp only [List.length_drop]; omega)

def stripJpegMetadata (bytes : Bytes) : Bytes :=
  if bytes.length < 4 then bytes else bytes.take 2 ++ jpegSegments (bytes.drop 2)

-- `eXIf`, `tEXt`, `iTXt` and `zTXt`.
def droppedChunks : List Bytes :=
  [[0x65,0x58,0x49,0x66],[0x74,0x45,0x58,0x74],[0x69,0x54,0x58,0x74],[0x7A,0x54,0x58,0x74]]

def pngChunks (rest : Bytes) : Bytes :=
  let total := 4 + 4 + fromBeBytes (rest.take 4) + 4
  if rest.length < 12 ∨ rest.length < total then [] else
    if (rest.drop 4).take 4 ∈ droppedChunks then pngChunks (rest.drop total)
    else rest.take total ++ pngChunks (rest.drop total)
termination_by rest.length
decreasing_by all_goals (simp only [List.length_drop]; omega)

def stripPngMetadata (bytes : Bytes) : Bytes :=
  if bytes.length < 8 + 12 then bytes else bytes.take 8 ++ pngChunks (bytes.drop 8)

def stripExif (bytes : Bytes) : Bytes :=
  if isJpeg bytes then stripJpegMetadata bytes
  else if isPng bytes then stripPngMetadata bytes
  else bytes

theorem magic_take (bytes : Bytes) : isImageMagic (bytes.take 8) = isImageMagic bytes := by
  have short (magic : Bytes) (small : magic.length ≤ 8) :
      magic.isPrefixOf (bytes.take 8) = magic.isPrefixOf bytes := by
    rw [Bool.eq_iff_iff,List.isPrefixOf_iff_prefix,List.isPrefixOf_iff_prefix,List.prefix_take_iff]
    exact ⟨fun both => both.1,fun front => ⟨front,small⟩⟩
  rw [isImageMagic,isImageMagic,isJpeg,isJpeg,isPng,isPng,short _ (by decide),short _ (by decide)]

-- The second look at a file reads eight bytes into a zeroed array: a byte of
-- padding never completes a magic number.
theorem magic_padded (bytes : Bytes) :
    isImageMagic ((bytes ++ List.replicate 8 0).take 8) = isImageMagic bytes := by
  have padded (magic : Bytes) (small : magic.length ≤ 8) (nonzero : 0 ∉ magic) :
      magic.isPrefixOf ((bytes ++ List.replicate 8 0).take 8) = magic.isPrefixOf bytes := by
    rw [Bool.eq_iff_iff,List.isPrefixOf_iff_prefix,List.isPrefixOf_iff_prefix,List.prefix_take_iff]
    constructor
    · intro both
      by_contra outside
      have bytesShort : bytes.length ≤ magic.length := by
        by_contra long
        exact outside (List.prefix_of_prefix_length_le both.1 (List.prefix_append ..) (by omega))
      obtain ⟨tail,rfl⟩ := List.prefix_of_prefix_length_le (List.prefix_append ..) both.1 bytesShort
      have zeros : tail <+: List.replicate 8 0 := (List.prefix_append_right_inj bytes).mp both.1
      cases tail with
      | nil => exact outside (by simp)
      | cons first rest =>
        have zero := List.eq_of_mem_replicate (zeros.subset List.mem_cons_self)
        exact nonzero (by rw [zero]; simp)
    · intro front
      exact ⟨front.trans (List.prefix_append ..),small⟩
  rw [isImageMagic,isImageMagic,isJpeg,isJpeg,isPng,isPng,padded _ (by decide) (by decide),
    padded _ (by decide) (by decide)]

end ArxRuna.Pipeline.Exif
