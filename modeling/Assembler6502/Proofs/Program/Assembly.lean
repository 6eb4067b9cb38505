import Assembler6502.Proofs.Program.Sections

/-!
# Assembling renderings of programs

Whatever text a program is written down as, assembling the text gives the image of the program. The
text determines segments up to the numbers of their lines, every segment has the code of its
section, and the overlay of the segments shows at each address the section that the image shows
there.
-/

namespace Assembler6502

/-! ## The segments of a rendering -/

theorem exists_of_forall₂_left
    {α β : Type} {related : α → β → Prop} {left : List α} {right : List β}
    (hrelated : List.Forall₂ related left right) :
    ∀ a ∈ left, ∃ b ∈ right, related a b := by
  induction hrelated with
  | nil => simp
  | @cons a b left right hfirst hrest ih =>
      refine List.forall_mem_cons.mpr ⟨⟨b, by simp, hfirst⟩, ?_⟩
      intro other hother
      obtain ⟨found, hmem, hfound⟩ := ih other hother
      exact ⟨found, by simp [hmem], hfound⟩

theorem exists_of_forall₂_right
    {α β : Type} {related : α → β → Prop} {left : List α} {right : List β}
    (hrelated : List.Forall₂ related left right) :
    ∀ b ∈ right, ∃ a ∈ left, related a b :=
  exists_of_forall₂_left (List.Forall₂.flip hrelated)

theorem pairwise_origin_ne
    {sections : List Section} {segments : List Segment}
    (hsegments : List.Forall₂ IsSegmentOf sections segments)
    (hdistinct : (sections.map Section.origin).Nodup) :
    segments.Pairwise fun first second => first.origin ≠ second.origin := by
  induction hsegments with
  | nil => exact List.Pairwise.nil
  | @cons part segment sections segments hfirst hrest ih =>
      rw [List.map_cons, List.nodup_cons] at hdistinct
      refine List.pairwise_cons.mpr ⟨?_, ih hdistinct.2⟩
      intro other hother hequal
      obtain ⟨otherPart, hmem, hother⟩ := exists_of_forall₂_right hrest other hother
      rw [hfirst.origin, hother.origin, Int.natCast_inj] at hequal
      exact hdistinct.1 (List.mem_map.mpr ⟨otherPart, hmem, hequal.symm⟩)

/-- The segments that a program is laid from: one for each section, by ascending origin. -/
structure AreSegmentsOf (program : Program) (segments : List Segment) : Prop where
  segmentOf : ∀ part ∈ program.sections, ∃ segment ∈ segments, IsSegmentOf part segment
  sectionOf : ∀ segment ∈ segments, ∃ part ∈ program.sections, IsSegmentOf part segment
  ascending : Segment.Ascending segments

theorem Program.Renders.ofFile_eq
    {program : Program} {content : Text} (hrenders : program.Renders content) :
    ∃ segments, Segment.ofFile content = .ok segments ∧ AreSegmentsOf program segments := by
  obtain ⟨lines, hlines, hfile⟩ := hrenders
  have hcodes := SourceLine.map_code_ofFile hfile hlines.isOneLine
  obtain ⟨segments, hcut, hsegments⟩ := hlines.cutAtOrigins_eq hcodes
  have hmem := Segment.mem_arranged_iff
    (pairwise_origin_ne hsegments program.originsDistinct)
  refine ⟨Segment.arranged segments, Segment.ofLines_of_cutAtOrigins hcut, ?_, ?_,
    Segment.arranged_ascending segments⟩
  · intro part hpart
    obtain ⟨segment, hsegment, hof⟩ := exists_of_forall₂_left hsegments part hpart
    exact ⟨segment, (hmem segment).mpr hsegment, hof⟩
  · intro segment hsegment
    exact exists_of_forall₂_right hsegments segment ((hmem segment).mp hsegment)

/-! ## The overlay of the segments -/

section Overlay

variable {program : Program} {segments : List Segment}

theorem IsSegmentOf.covers_iff
    {part : Section} {segment : Segment} (hsegment : IsSegmentOf part segment)
    (address : Nat) :
    segment.Covers address ↔
      part.origin ≤ address ∧ address < part.origin + part.code.length := by
  unfold Segment.Covers
  rw [hsegment.origin, hsegment.assembles.2]
  omega

theorem AreSegmentsOf.fits
    (hsegments : AreSegmentsOf program segments) :
    ∀ segment ∈ segments, segment.Fits := by
  intro segment hsegment
  obtain ⟨part, -, hof⟩ := hsegments.sectionOf segment hsegment
  exact hof.fits

theorem AreSegmentsOf.layAll_getElem?
    (hsegments : AreSegmentsOf program segments)
    {address : Nat} (haddress : address < 0x10000) :
    (Image.blank.layAll segments)[address]? = some (program.cell address) := by
  -- Both sides look for the covering section with the greatest origin.
  unfold Program.cell
  cases hpart : program.sectionAt? address with
  | none =>
      have hnone := List.filter_eq_nil_iff.mp (List.argmax_eq_none.mp hpart)
      have huncovered : ∀ segment ∈ segments, ¬segment.Covers address := by
        intro segment hsegment hcovers
        obtain ⟨part, hmem, hof⟩ := hsegments.sectionOf segment hsegment
        exact hnone part hmem (by simpa using (hof.covers_iff address).mp hcovers)
      rw [Image.layAll_getElem?_of_not_covers Image.length_blank hsegments.fits huncovered]
      exact Image.blank_getElem? haddress
  | some part =>
      obtain ⟨hmem, hcovers⟩ := List.mem_filter.mp (List.argmax_mem hpart)
      rw [decide_eq_true_eq] at hcovers
      obtain ⟨segment, hsegment, hof⟩ := hsegments.segmentOf part hmem
      have htop : Image.TopAt segments address segment := by
        refine ⟨hsegment, (hof.covers_iff address).mpr hcovers, ?_⟩
        intro other hother hotherCovers
        obtain ⟨otherPart, hotherMem, hotherOf⟩ := hsegments.sectionOf other hother
        have hcandidate := (hotherOf.covers_iff address).mp hotherCovers
        have hle : otherPart.origin ≤ part.origin := List.le_of_mem_argmax
          (List.mem_filter.mpr ⟨hotherMem, by simpa using hcandidate⟩) hpart
        rw [hof.origin, hotherOf.origin]
        exact_mod_cast hle
      have hindex : ((address : Int) - segment.origin).toNat = address - part.origin := by
        rw [hof.origin]
        omega
      have hinside : address - part.origin < part.code.length := by omega
      rw [Image.layAll_getElem?_of_topAt Image.length_blank hsegments.fits
        hsegments.ascending htop, hindex, hof.assembles.2]
      simp only [List.getD_eq_getElem?_getD, List.getElem?_eq_getElem hinside,
        Option.getD_some]

theorem Program.length_image (program : Program) :
    program.image.length = 0x10000 := by
  rw [image, List.length_map, List.length_range]

theorem Program.image_getElem?
    (program : Program) {address : Nat} (haddress : address < 0x10000) :
    program.image[address]? = some (program.cell address) := by
  rw [image, List.getElem?_map, List.getElem?_range haddress, Option.map_some]

theorem AreSegmentsOf.layAll_eq
    (hsegments : AreSegmentsOf program segments) :
    Image.blank.layAll segments = program.image := by
  have hlength : (Image.blank.layAll segments).length = 0x10000 := by
    have hexact := Image.length_layAll_eq_iff Image.blank segments
    rw [Image.length_blank] at hexact
    exact hexact.mpr fun segment hsegment =>
      Or.inr (Or.inl (hsegments.fits segment hsegment))
  apply List.ext_getElem?
  intro address
  by_cases haddress : address < 0x10000
  · rw [hsegments.layAll_getElem? haddress, program.image_getElem? haddress]
  · rw [List.getElem?_eq_none (by omega), List.getElem?_eq_none]
    rw [program.length_image]
    omega

theorem AreSegmentsOf.laySegments_eq
    (hsegments : AreSegmentsOf program segments) :
    Image.laySegments true Image.blank segments = ⟨[], .ok program.image⟩ := by
  have houtcome : ∀ segment ∈ segments, segment.outcome = ⟨[], .ok ()⟩ := by
    intro segment hsegment
    obtain ⟨part, -, hof⟩ := hsegments.sectionOf segment hsegment
    exact hof.assembles.1
  have hassembles : ∀ segment ∈ segments, segment.Assembles := by
    intro segment hsegment
    rw [Segment.Assembles, houtcome segment hsegment]
  have hnotices : segments.flatMap (Image.noticesOf true) = [] := by
    rw [List.flatMap_eq_nil_iff]
    intro segment hsegment
    rw [Image.noticesOf, houtcome segment hsegment]
    rfl
  rw [Image.laySegments_of_assembles true Image.blank segments hassembles, hnotices,
    hsegments.layAll_eq]

end Overlay

/-! ## A written program

A loop with a backward branch, and a section that overwrites one byte of the loop's code. The text
has both cases of letters, comments, odd spaces and two kinds of line ends.
-/

def countdownCommands : List Command :=
  [⟨some "loop".toList, .dex, .implied, by
      rintro name ⟨⟩
      exact ⟨by decide, Text.forall_mem_of_all rfl, by decide⟩, rfl⟩,
    ⟨none, .bne, .relative "loop".toList, nofun, rfl⟩,
    ⟨none, .sta, .absoluteX 0x0200, nofun, rfl⟩]

def countdown : Section where
  origin := 0x8000
  commands := countdownCommands
  originInMemory := by decide
  fits := by decide
  labelsDistinct := by decide
  branchesReach := by
    intro before command after target hsplit htarget
    rcases before with _ | ⟨first, _ | ⟨second, _ | ⟨third, later⟩⟩⟩ <;>
      simp only [countdownCommands, List.nil_append, List.cons_append, List.cons.injEq] at hsplit
    · obtain ⟨rfl, -⟩ := hsplit
      cases htarget
    · obtain ⟨rfl, rfl, -⟩ := hsplit
      cases htarget
      decide
    · obtain ⟨-, -, rfl, -⟩ := hsplit
      cases htarget
    · simp at hsplit

def interruption : Section where
  origin := 0x8004
  commands := [⟨none, .clc, .implied, nofun, rfl⟩]
  originInMemory := by decide
  fits := by decide
  labelsDistinct := by decide
  branchesReach := by
    intro before command after target hsplit htarget
    rcases before with _ | ⟨first, later⟩ <;>
      simp only [List.nil_append, List.cons_append, List.cons.injEq] at hsplit
    · obtain ⟨rfl, -⟩ := hsplit
      cases htarget
    · simp at hsplit

def interruptedCountdown : Program where
  sections := [countdown, interruption]
  originsDistinct := by decide

def interruptedCountdownLines : List Text :=
  ["; a loop".toList, "\t.ORG  $8000 ; code".toList, "LOOP:\tDEX".toList,
    "  Bne   Loop;again".toList, [], "sta $0200 , X ".toList, ".org $8004".toList,
    "clc".toList]

theorem interruptedCountdown_lines :
    SectionLines interruptedCountdown.sections interruptedCountdownLines := by
  have hend : IsTrailer [] := .blank (by decide)
  have hcountdown : CommandLines countdown.commands
      ["LOOP:\tDEX".toList, "  Bne   Loop;again".toList, [], "sta $0200 , X ".toList] :=
    .command (.command (.label "loop".toList (show IsIndentation "\t".toList by decide)) .nothing)
      (@IsLineOf.line _ [] "LOOP:\tDEX".toList [] (by decide) (by decide) hend) <|
    .command (.command .nothing
        (.operand (show IsSpaces "   ".toList by decide) (by decide) (.relative "loop".toList)))
      (@IsLineOf.line _ "  ".toList "Bne   Loop".toList ";again".toList (by decide) (by decide)
        (@IsTrailer.comment [] "again".toList (by decide) (by decide))) <|
    .trailer hend <|
    .command (.command .nothing
        (.operand (show IsSpaces " ".toList by decide) (by decide)
          (.absoluteX 0x0200 ⟨" ".toList, " ".toList, by decide, by decide, rfl⟩)))
      (@IsLineOf.line _ [] "sta $0200 , X".toList " ".toList (by decide) (by decide)
        (.blank (by decide)))
    .nil
  have hinterruption : CommandLines interruption.commands ["clc".toList] :=
    .command (.command .nothing .nothing)
      (@IsLineOf.line _ [] "clc".toList [] (by decide) (by decide) hend) .nil
  exact .trailer (@IsTrailer.comment [] " a loop".toList (by decide) (by decide)) <|
    .origin (.directive 4 (show IsIndentation "  ".toList by decide) (by decide))
      (@IsLineOf.line _ "\t".toList ".ORG  $8000".toList " ; code".toList (by decide) (by decide)
        (@IsTrailer.comment " ".toList " code".toList (by decide) (by decide)))
      hcountdown <|
    .origin (.directive 4 (show IsIndentation " ".toList by decide) (by decide))
      (@IsLineOf.line _ [] ".org $8004".toList [] (by decide) (by decide) hend)
      hinterruption .nil

def interruptedCountdownText : Text :=
  ("; a loop\n\t.ORG  $8000 ; code\r\nLOOP:\tDEX\n  Bne   Loop;again\n\nsta $0200 , X \n" ++
    ".org $8004\nclc").toList

theorem interruptedCountdown_renders :
    interruptedCountdown.Renders interruptedCountdownText := by
  have hfeed : SourceLine.IsLineEnd ['\n'] := Or.inl rfl
  have hreturnFeed : SourceLine.IsLineEnd ['\r', '\n'] := Or.inr (Or.inr rfl)
  exact ⟨interruptedCountdownLines, interruptedCountdown_lines,
    .line _ hfeed <| .line _ hreturnFeed <| .line _ hfeed <| .line _ hfeed <|
      .line _ hfeed <| .line _ hfeed <| .line _ hfeed <| .last _⟩

/-! ## Renderings assemble to the image -/

/-- Every text that a program is written down as assembles to the image of the program. A quiet run
reports nothing. -/
theorem Program.assemble_eq_image
    (program : Program) {content : Text} (hrenders : program.Renders content) :
    Image.assemble content true = ⟨[], .ok program.image⟩ := by
  obtain ⟨segments, hfile, hsegments⟩ := hrenders.ofFile_eq
  rw [Image.assemble, hfile]
  exact hsegments.laySegments_eq

theorem Program.assemble_eq_image_countdown :
    ∃ image,
      Image.assemble interruptedCountdownText true = ⟨[], .ok image⟩ ∧
      image.length = 0x10000 ∧
      [0x7fff, 0x8000, 0x8001, 0x8002, 0x8003, 0x8004, 0x8005, 0x8006].map (image[·]?) =
        [0xea, 0xca, 0xd0, 0xfd, 0x9d, 0x18, 0x02, 0xea].map some := by
  refine ⟨_, Program.assemble_eq_image _ interruptedCountdown_renders,
    Program.length_image _, ?_⟩
  simp (disch := decide) only [List.map_cons, List.map_nil, Program.image_getElem?]
  decide

end Assembler6502
