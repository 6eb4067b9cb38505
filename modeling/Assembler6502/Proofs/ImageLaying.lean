import Assembler6502.Image
import Mathlib.Tactic

/-!
# Laying code over an image

Assembling a source file is one long overlay: every segment is assembled on its own, and its code
is laid over the image that the segments before it left. This file separates the two halves. A
segment has an outcome that does not depend on the image, and the overlay is a fold over segments
that all succeeded. What one overlay does to the length and to a single cell is stated once, for
every origin and every code.
-/

namespace Assembler6502

namespace Segment

def assembled (segment : Segment) : Block :=
  (Block.ofSource segment.code).assemble.1

def outcome (segment : Segment) : Report Problem Unit :=
  (Block.ofSource segment.code).assemble.2

def execCode (segment : Segment) : List Int :=
  segment.assembled.execCode

def Assembles (segment : Segment) : Prop :=
  segment.outcome.result = .ok ()

def Covers (segment : Segment) (address : Nat) : Prop :=
  segment.origin ≤ address ∧ address < segment.origin + segment.execCode.length

/-- The segment's code lies inside the address space, and no address of it counts from the end. -/
def Fits (segment : Segment) : Prop :=
  0 ≤ segment.origin ∧
    segment.origin + segment.execCode.length ≤ Image.addressCount

instance (segment : Segment) (address : Nat) : Decidable (segment.Covers address) :=
  inferInstanceAs (Decidable (_ ∧ _))

end Segment

namespace Image

def layAll (image : Image) (segments : List Segment) : Image :=
  segments.foldl (fun image segment => image.lay segment.origin segment.execCode) image

@[simp] theorem layAll_nil (image : Image) :
    image.layAll [] = image := rfl

@[simp] theorem layAll_cons
    (image : Image) (segment : Segment) (rest : List Segment) :
    image.layAll (segment :: rest) =
      (image.lay segment.origin segment.execCode).layAll rest := rfl

@[simp] theorem length_blank : blank.length = addressCount := by
  simp [blank]

theorem blank_getElem? {address : Nat} (haddress : address < addressCount) :
    blank[address]? = some filler := by
  simp [blank, haddress]

/-! ## Assembling segments is laying them -/

def noticesOf (quiet : Bool) (segment : Segment) : List Notice :=
  segment.outcome.notices ++
    Notice.unlessQuiet quiet (.assembled segment.execCode.length segment.origin)

theorem laySegments_cons_of_assembles
    (quiet : Bool) (image : Image) {segment : Segment} (rest : List Segment)
    (hassembles : segment.Assembles) :
    laySegments quiet image (segment :: rest) =
      (laySegments quiet (image.lay segment.origin segment.execCode) rest).preceded
        (noticesOf quiet segment) := by
  unfold Segment.Assembles Segment.outcome at hassembles
  simp only [laySegments]
  rw [hassembles]
  rfl

theorem laySegments_cons_of_error
    (quiet : Bool) (image : Image) {segment : Segment} (rest : List Segment)
    {problem : Problem}
    (herror : segment.outcome.result = .error problem) :
    laySegments quiet image (segment :: rest) =
      ⟨segment.outcome.notices, .error problem⟩ := by
  unfold Segment.outcome at herror
  simp only [laySegments]
  rw [herror]
  rfl

theorem laySegments_of_assembles
    (quiet : Bool) (image : Image) (segments : List Segment)
    (hassembles : ∀ segment ∈ segments, segment.Assembles) :
    laySegments quiet image segments =
      ⟨segments.flatMap (noticesOf quiet), .ok (image.layAll segments)⟩ := by
  induction segments generalizing image with
  | nil => rfl
  | cons segment rest ih =>
      have hfirst : segment.Assembles := hassembles segment (by simp)
      have hrest : ∀ other ∈ rest, other.Assembles := by
        intro other hother
        exact hassembles other (by simp [hother])
      rw [laySegments_cons_of_assembles quiet image rest hfirst, ih _ hrest]
      rfl

theorem assembles_of_laySegments
    {quiet : Bool} {image final : Image} {segments : List Segment}
    (hresult : (laySegments quiet image segments).result = .ok final) :
    ∀ segment ∈ segments, segment.Assembles := by
  induction segments generalizing image with
  | nil => simp
  | cons segment rest ih =>
      cases houtcome : segment.outcome.result with
      | error problem =>
          rw [laySegments_cons_of_error quiet image rest houtcome] at hresult
          simp at hresult
      | ok done =>
          have hfirst : segment.Assembles := houtcome
          rw [laySegments_cons_of_assembles quiet image rest hfirst] at hresult
          intro other hother
          rcases List.mem_cons.mp hother with rfl | hmem
          · exact hfirst
          · exact ih hresult other hmem

theorem exists_failing_of_laySegments
    {quiet : Bool} {image : Image} {segments : List Segment} {problem : Problem}
    (hresult : (laySegments quiet image segments).result = .error problem) :
    ∃ before failing after,
      segments = before ++ failing :: after ∧
      (∀ segment ∈ before, segment.Assembles) ∧
      failing.outcome.result = .error problem := by
  induction segments generalizing image with
  | nil => simp [laySegments] at hresult
  | cons segment rest ih =>
      cases houtcome : segment.outcome.result with
      | error found =>
          rw [laySegments_cons_of_error quiet image rest houtcome] at hresult
          rw [Except.error.inj hresult] at houtcome
          exact ⟨[], segment, rest, rfl, by simp, houtcome⟩
      | ok done =>
          have hfirst : segment.Assembles := houtcome
          rw [laySegments_cons_of_assembles quiet image rest hfirst] at hresult
          obtain ⟨before, failing, after, hsplit, hbefore, hfailing⟩ := ih hresult
          refine ⟨segment :: before, failing, after, by rw [hsplit, List.cons_append], ?_, hfailing⟩
          exact List.forall_mem_cons.mpr ⟨hfirst, hbefore⟩

/-- A source file has an image exactly if it has segments that all assemble. The image is then
the overlay of their code. -/
theorem assemble_ok_iff
    (content : Text) (quiet : Bool) (image : Image) :
    (assemble content quiet).result = .ok image ↔
      ∃ segments, Segment.ofFile content = .ok segments ∧
        (∀ segment ∈ segments, segment.Assembles) ∧
        image = blank.layAll segments := by
  unfold assemble
  cases hsegments : Segment.ofFile content with
  | error problem => simp
  | ok segments =>
      simp only [Except.ok.injEq, exists_eq_left']
      constructor
      · intro hresult
        have hassembles := assembles_of_laySegments hresult
        rw [laySegments_of_assembles quiet blank segments hassembles] at hresult
        simp only [Except.ok.injEq] at hresult
        exact ⟨hassembles, hresult.symm⟩
      · rintro ⟨hassembles, rfl⟩
        rw [laySegments_of_assembles quiet blank segments hassembles]

/-! ## The length of an overlay -/

/-- Code of some length at an origin replaces as many cells of an image as it has bytes: it has
none, or it lies inside the image, or it lies inside the image when its addresses count from the
end. -/
def KeepsLength (size : Nat) (origin : Int) (count : Nat) : Prop :=
  count = 0 ∨
    (0 ≤ origin ∧ origin + count ≤ size) ∨
    (-(size : Int) ≤ origin ∧ origin + count < 0)

theorem boundary_le (size : Nat) (address : Int) :
    boundary size address ≤ size := by
  unfold boundary
  split <;> omega

theorem length_lay
    (image : Image) (origin : Int) (code : List Int) :
    (image.lay origin code).length =
      boundary image.length origin + code.length +
        (image.length -
          max (boundary image.length origin)
            (boundary image.length (origin + code.length))) := by
  have hstart := boundary_le image.length origin
  unfold lay
  simp only [List.length_append, List.length_take, List.length_drop]
  omega

theorem length_le_length_lay
    (image : Image) (origin : Int) (code : List Int) :
    image.length ≤ (image.lay origin code).length := by
  rw [length_lay]
  unfold boundary
  split <;> split <;> omega

/-- One overlay keeps the length in exactly three of its regimes. In all others, where the code
runs past the end, starts beyond it, or straddles address zero, the image grows. -/
theorem length_lay_eq_iff
    (image : Image) (origin : Int) (code : List Int) :
    (image.lay origin code).length = image.length ↔
      KeepsLength image.length origin code.length := by
  rw [length_lay]
  unfold KeepsLength boundary
  split <;> split <;> omega

theorem length_le_length_layAll
    (image : Image) (segments : List Segment) :
    image.length ≤ (image.layAll segments).length := by
  induction segments generalizing image with
  | nil => simp
  | cons segment rest ih =>
      calc
        image.length ≤ (image.lay segment.origin segment.execCode).length :=
          length_le_length_lay image segment.origin segment.execCode
        _ ≤ (image.layAll (segment :: rest)).length := ih _

theorem length_layAll_eq_iff
    (image : Image) (segments : List Segment) :
    (image.layAll segments).length = image.length ↔
      ∀ segment ∈ segments,
        KeepsLength image.length segment.origin segment.execCode.length := by
  induction segments generalizing image with
  | nil => simp
  | cons segment rest ih =>
      have hstep := length_lay_eq_iff image segment.origin segment.execCode
      have hgrow := length_le_length_lay image segment.origin segment.execCode
      have hlater := length_le_length_layAll
        (image.lay segment.origin segment.execCode) rest
      simp only [layAll_cons, List.forall_mem_cons]
      constructor
      · -- No step shrinks the image, so where the whole run keeps the length every step does.
        intro hlength
        have hfirst : (image.lay segment.origin segment.execCode).length =
            image.length := by omega
        refine ⟨hstep.mp hfirst, ?_⟩
        rw [← hfirst]
        exact (ih _).mp (by omega)
      · rintro ⟨hfirst, hrest⟩
        have hkept := hstep.mpr hfirst
        rw [← hkept] at hrest
        rw [(ih _).mpr hrest, hkept]

/-! ## The cells of an overlay -/

/-- Code inside the image replaces the cells from its origin on and no others. -/
theorem lay_getElem?
    {image : Image} {origin : Int} {code : List Int}
    (horigin : 0 ≤ origin)
    (hend : origin + code.length ≤ image.length) (address : Nat) :
    (image.lay origin code)[address]? =
      if origin ≤ address ∧ address < origin + code.length then
        code[(address - origin).toNat]?
      else image[address]? := by
  have hstart : boundary image.length origin = origin.toNat := by
    unfold boundary
    split <;> omega
  have hstop : boundary image.length (origin + code.length) =
      origin.toNat + code.length := by
    unfold boundary
    split <;> omega
  have hmax : max origin.toNat (origin.toNat + code.length) =
      origin.toNat + code.length := by omega
  have htake : (image.take origin.toNat).length = origin.toNat := by
    rw [List.length_take]
    omega
  simp only [lay, hstart, hstop, hmax, List.append_assoc]
  by_cases hbefore : address < origin.toNat
  · have hout : ¬(origin ≤ address ∧ address < origin + code.length) := by omega
    rw [if_neg hout, List.getElem?_append_left (by omega),
      List.getElem?_take_of_lt hbefore]
  · rw [List.getElem?_append_right (by omega), htake]
    by_cases hinside : address < origin + code.length
    · have hin : origin ≤ address ∧ address < origin + code.length := by omega
      have hindex : address - origin.toNat = (address - origin).toNat := by omega
      rw [if_pos hin, List.getElem?_append_left (by omega), hindex]
    · have hout : ¬(origin ≤ address ∧ address < origin + code.length) := by omega
      have hindex : origin.toNat + code.length +
          (address - origin.toNat - code.length) = address := by omega
      rw [if_neg hout, List.getElem?_append_right (by omega),
        List.getElem?_drop, hindex]

theorem length_lay_of_fits
    {image : Image} {segment : Segment}
    (hlength : image.length = addressCount) (hfits : segment.Fits) :
    (image.lay segment.origin segment.execCode).length = addressCount := by
  rw [← hlength, length_lay_eq_iff, hlength]
  exact Or.inr (Or.inl hfits)

theorem lay_getElem?_of_covers
    {image : Image} {segment : Segment} {address : Nat}
    (hlength : image.length = addressCount) (hfits : segment.Fits)
    (hcovers : segment.Covers address) :
    (image.lay segment.origin segment.execCode)[address]? =
      segment.execCode[(address - segment.origin).toNat]? := by
  rw [lay_getElem? hfits.1 (by rw [hlength]; exact hfits.2)]
  exact if_pos hcovers

theorem lay_getElem?_of_not_covers
    {image : Image} {segment : Segment} {address : Nat}
    (hlength : image.length = addressCount) (hfits : segment.Fits)
    (hcovers : ¬segment.Covers address) :
    (image.lay segment.origin segment.execCode)[address]? = image[address]? := by
  rw [lay_getElem? hfits.1 (by rw [hlength]; exact hfits.2)]
  exact if_neg hcovers

theorem layAll_getElem?_of_not_covers
    {image : Image} {segments : List Segment} {address : Nat}
    (hlength : image.length = addressCount)
    (hfits : ∀ segment ∈ segments, segment.Fits)
    (hcovers : ∀ segment ∈ segments, ¬segment.Covers address) :
    (image.layAll segments)[address]? = image[address]? := by
  induction segments generalizing image with
  | nil => rfl
  | cons segment rest ih =>
      have hfirst := hfits segment (by simp)
      rw [layAll_cons, ih (length_lay_of_fits hlength hfirst)
        (fun other hother => hfits other (by simp [hother]))
        (fun other hother => hcovers other (by simp [hother]))]
      exact lay_getElem?_of_not_covers hlength hfirst (hcovers segment (by simp))

structure TopAt
    (segments : List Segment) (address : Nat) (segment : Segment) : Prop where
  mem : segment ∈ segments
  covers : segment.Covers address
  greatest : ∀ other ∈ segments,
    other.Covers address → other.origin ≤ segment.origin

/-- Segments in ascending order leave the code of the greatest origin on top. -/
theorem layAll_getElem?_of_topAt
    {image : Image} {segments : List Segment} {address : Nat} {segment : Segment}
    (hlength : image.length = addressCount)
    (hfits : ∀ segment ∈ segments, segment.Fits)
    (hascending : segments.Pairwise fun first second => first.origin < second.origin)
    (htop : TopAt segments address segment) :
    (image.layAll segments)[address]? =
      segment.execCode[(address - segment.origin).toNat]? := by
  induction segments generalizing image with
  | nil => simpa using htop.mem
  | cons first rest ih =>
      have hfirst := hfits first (by simp)
      have hkept := length_lay_of_fits hlength hfirst
      have hrest : ∀ other ∈ rest, other.Fits := by
        intro other hother
        exact hfits other (by simp [hother])
      obtain ⟨hbelow, hlater⟩ := List.pairwise_cons.mp hascending
      rw [layAll_cons]
      rcases List.mem_cons.mp htop.mem with rfl | hmem
      · -- Every later segment starts higher, so none of them covers the address.
        have huncovered : ∀ other ∈ rest, ¬other.Covers address := by
          intro other hother hcovers
          have hle := htop.greatest other (by simp [hother]) hcovers
          have hlt := hbelow other hother
          omega
        rw [layAll_getElem?_of_not_covers hkept hrest huncovered]
        exact lay_getElem?_of_covers hlength hfirst htop.covers
      · exact ih hkept hrest hlater
          ⟨hmem, htop.covers,
            fun other hother => htop.greatest other (by simp [hother])⟩

end Image

end Assembler6502
