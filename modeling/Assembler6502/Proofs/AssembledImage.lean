import Assembler6502.Proofs.ImageLaying
import Assembler6502.Proofs.SegmentOrder

/-!
# The image of a source file

What the image of a source file looks like, given the code of the file's segments: how many cells
it has for arbitrary integer origins, and what every cell holds when all code lies inside the
address space.
-/

namespace Assembler6502

namespace Image

theorem assemble_eq_layAll
    {content : Text} {quiet : Bool} {segments : List Segment} {image : Image}
    (hsegments : Segment.ofFile content = .ok segments)
    (hassemble : (assemble content quiet).result = .ok image) :
    image = blank.layAll segments := by
  obtain ⟨others, hothers, -, himage⟩ :=
    (assemble_ok_iff content quiet image).mp hassemble
  rw [hsegments, Except.ok.injEq] at hothers
  rw [himage, hothers]

/-! ## Size -/

/-- The image of a source file is never smaller than the address space. It is exactly as large if
and only if every segment with code lies inside the address space, counted from its start or as a
whole from its end. -/
theorem assemble_length
    {content : Text} {quiet : Bool} {segments : List Segment} {image : Image}
    (hsegments : Segment.ofFile content = .ok segments)
    (hassemble : (assemble content quiet).result = .ok image) :
    0x10000 ≤ image.length ∧
      (image.length = 0x10000 ↔
        ∀ segment ∈ segments, segment.execCode ≠ [] →
          (0 ≤ segment.origin ∧
              segment.origin + segment.execCode.length ≤ 0x10000) ∨
            (-0x10000 ≤ segment.origin ∧
              segment.origin + segment.execCode.length < 0)) := by
  have himage := assemble_eq_layAll hsegments hassemble
  have hlower := length_le_length_layAll blank segments
  have hexact := length_layAll_eq_iff blank segments
  rw [← himage, length_blank] at hlower hexact
  refine ⟨hlower, hexact.trans (forall₂_congr ?_)⟩
  intro segment hmem
  unfold KeepsLength addressCount
  rw [or_iff_not_imp_left, ne_eq, List.length_eq_zero_iff]
  norm_cast

/-- One byte two cells before the end, written with a negative origin, stays inside the image. An
instruction of two bytes in its last cell does not. -/
theorem assemble_length_past_end :
    ∃ segments image,
      Segment.ofFile ".org $-2\nclc\n.org $ffff\nlda #$01\n".toList = .ok segments ∧
      (assemble ".org $-2\nclc\n.org $ffff\nlda #$01\n".toList true).result = .ok image ∧
      0x10000 < image.length := by
  let low : Segment := ⟨-2, [⟨2, "clc".toList⟩]⟩
  let high : Segment := ⟨0xffff, [⟨4, "lda #$01".toList⟩]⟩
  have hsegments : Segment.ofFile ".org $-2\nclc\n.org $ffff\nlda #$01\n".toList =
      .ok (Segment.arranged [low, high]) := rfl
  have hmem := Segment.mem_arranged_iff (show [low, high].Pairwise _ by decide)
  have hassemble := (assemble_ok_iff ".org $-2\nclc\n.org $ffff\nlda #$01\n".toList true _).mpr
    ⟨_, hsegments, fun segment hsegment => by
      rcases List.mem_pair.mp ((hmem segment).mp hsegment) with rfl | rfl <;> rfl, rfl⟩
  refine ⟨_, _, hsegments, hassemble, ?_⟩
  obtain ⟨hlower, hexact⟩ := assemble_length hsegments hassemble
  refine lt_of_le_of_ne hlower fun hequal => ?_
  have hcode : high.execCode = [0xa9, 0x01] := rfl
  have hregime := hexact.mp hequal.symm high ((hmem high).mpr (by simp)) (by simp [hcode])
  rw [hcode] at hregime
  exact absurd hregime (by decide)

/-! ## Contents -/

/-- If the code of every segment lies inside the address space, the image has a cell for each
address. The cell holds the byte of the covering segment with the greatest origin, and the filler
where no segment covers the address. -/
theorem assemble_cells
    {content : Text} {quiet : Bool} {segments : List Segment} {image : Image}
    (hsegments : Segment.ofFile content = .ok segments)
    (hassemble : (assemble content quiet).result = .ok image)
    (hfits : ∀ segment ∈ segments, segment.Fits) :
    image.length = 0x10000 ∧
      ∀ address < 0x10000,
        (∀ segment, TopAt segments address segment →
          image[address]? = segment.execCode[(address - segment.origin).toNat]?) ∧
        ((∀ segment ∈ segments, ¬segment.Covers address) →
          image[address]? = some 0xea) := by
  have himage := assemble_eq_layAll hsegments hassemble
  have hascending := Segment.ofFile_ascending hsegments
  refine ⟨?_, ?_⟩
  · have hlength := length_layAll_eq_iff blank segments
    rw [← himage, length_blank] at hlength
    refine hlength.mpr ?_
    intro segment hmem
    exact Or.inr (Or.inl (hfits segment hmem))
  · intro address haddress
    rw [himage]
    constructor
    · intro segment htop
      exact layAll_getElem?_of_topAt length_blank hfits hascending htop
    · intro huncovered
      rw [layAll_getElem?_of_not_covers length_blank hfits huncovered]
      exact blank_getElem? haddress

/-- The second segment overwrites the operand of the first one's instruction. -/
theorem assemble_cells_overlap :
    ∃ segments image,
      Segment.ofFile ".org $10\nlda #$01\n.org $11\nclc\n".toList = .ok segments ∧
      (assemble ".org $10\nlda #$01\n.org $11\nclc\n".toList true).result = .ok image ∧
      (∀ segment ∈ segments, segment.Fits) ∧
      image[0x10]? = some 0xa9 ∧ image[0x11]? = some 0x18 ∧ image[0x12]? = some 0xea := by
  let first : Segment := ⟨0x10, [⟨2, "lda #$01".toList⟩]⟩
  let second : Segment := ⟨0x11, [⟨4, "clc".toList⟩]⟩
  have hsegments : Segment.ofFile ".org $10\nlda #$01\n.org $11\nclc\n".toList =
      .ok (Segment.arranged [first, second]) := rfl
  have hmem := Segment.mem_arranged_iff (show [first, second].Pairwise _ by decide)
  have hassemble := (assemble_ok_iff ".org $10\nlda #$01\n.org $11\nclc\n".toList true _).mpr
    ⟨_, hsegments, fun segment hsegment => by
      rcases List.mem_pair.mp ((hmem segment).mp hsegment) with rfl | rfl <;> rfl, rfl⟩
  have hfits : ∀ segment ∈ Segment.arranged [first, second], segment.Fits := by
    intro segment hsegment
    rcases List.mem_pair.mp ((hmem segment).mp hsegment) with rfl | rfl
    · exact ⟨by decide, by decide⟩
    · exact ⟨by decide, by decide⟩
  obtain ⟨-, hcells⟩ := assemble_cells hsegments hassemble hfits
  refine ⟨_, _, hsegments, hassemble, hfits, ?_, ?_, ?_⟩
  · refine (hcells 0x10 (by decide)).1 first ⟨(hmem first).mpr (by simp), by decide, ?_⟩
    intro other hother hcovers
    rcases List.mem_pair.mp ((hmem other).mp hother) with rfl | rfl
    · exact le_rfl
    · exact absurd hcovers (by decide)
  · refine (hcells 0x11 (by decide)).1 second ⟨(hmem second).mpr (by simp), by decide, ?_⟩
    intro other hother _
    rcases List.mem_pair.mp ((hmem other).mp hother) with rfl | rfl <;> decide
  · refine (hcells 0x12 (by decide)).2 ?_
    intro segment hsegment
    rcases List.mem_pair.mp ((hmem segment).mp hsegment) with rfl | rfl <;> decide

end Image

end Assembler6502
