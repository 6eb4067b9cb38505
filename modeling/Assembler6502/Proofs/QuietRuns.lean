import Assembler6502.CommandLine.Run
import Assembler6502.Proofs.ImageLaying
import Assembler6502.Proofs.SegmentOrder
import Assembler6502.Proofs.TwoPasses

/-!
# Quiet runs

Being quiet takes the progress notices out of a report and does nothing else. Every stage of a run
keeps this: the work on the segments, the image, the files, and so the whole command line. What is
left to tell are the labels that were not found. Their number is counted here from the object code
and the symbols of the segments that a run gets to.
-/

namespace Assembler6502

/-! ## Reports without progress -/

namespace Notice

def withoutProgress (notices : List Notice) : List Notice :=
  notices.filter fun notice => !notice.isProgress

theorem withoutProgress_append (first second : List Notice) :
    withoutProgress (first ++ second) = withoutProgress first ++ withoutProgress second :=
  List.filter_append first second

theorem withoutProgress_unlessQuiet
    {notice : Notice} (hprogress : notice.isProgress = true) (quiet : Bool) :
    withoutProgress (unlessQuiet quiet notice) = unlessQuiet true notice := by
  cases quiet <;> simp [withoutProgress, unlessQuiet, hprogress]

theorem withoutProgress_replicate (count : Nat) :
    withoutProgress (List.replicate count labelNotFound) = List.replicate count labelNotFound :=
  List.filter_replicate_of_pos rfl

end Notice

namespace Report

variable {ε α : Type}

def silenced (report : Report ε α) : Report ε α :=
  ⟨Notice.withoutProgress report.notices, report.result⟩

theorem silenced_preceded (notices : List Notice) (report : Report ε α) :
    (report.preceded notices).silenced =
      report.silenced.preceded (Notice.withoutProgress notices) := by
  simp [silenced, preceded, Notice.withoutProgress_append]

end Report

/-! ## Labels that are not found -/

/-- The labels that the second pass meets and does not find. It gets no further than the first
label of the object code if it does not find that one. -/
def unresolvedNames (symbols : SymbolTable) (objectCode : List Entry) : List Text :=
  match labelNames objectCode with
  | [] => []
  | first :: later =>
    if (symbols.find? first).isSome then later.filter fun name => !(symbols.find? name).isSome
    else [first]

theorem notices_resolve (symbols : SymbolTable) (objectCode : List Entry) :
    (resolve symbols objectCode).notices =
      List.replicate (unresolvedNames symbols objectCode).length .labelNotFound := by
  unfold unresolvedNames
  cases hnames : labelNames objectCode with
  | nil =>
      have hnone : ∀ name, (labelNames objectCode).head? = some name →
          (symbols.find? name).isSome := by simp [hnames]
      obtain ⟨code, hresolve, -⟩ := resolve_of_first_found hnone
      simp [hresolve, missingNames, hnames]
  | cons first later =>
      cases hfirst : symbols.find? first with
      | none =>
          rw [resolve_of_first_missing (by rw [hnames]; rfl) hfirst]
          simp [hfirst]
      | some position =>
          have hfound : ∀ name, (labelNames objectCode).head? = some name →
              (symbols.find? name).isSome := by simp [hnames, hfirst]
          obtain ⟨code, hresolve, -⟩ := resolve_of_first_found hfound
          simp [hresolve, missingNames, hnames, hfirst]

namespace Segment

/-- The labels of a segment that are not found when it is assembled on its own. If a line cannot be
encoded, the block is left without object code. -/
def unresolved (segment : Segment) : List Text :=
  unresolvedNames segment.assembled.symbols segment.assembled.objectCode

theorem notices_outcome (segment : Segment) :
    segment.outcome.notices = List.replicate segment.unresolved.length .labelNotFound := by
  unfold unresolved outcome assembled Block.assemble
  rcases hencoded : (Block.ofSource segment.code).firstPass with ⟨encoded, problem | objectCode⟩
  · have hblock : encoded.objectCode = [] :=
      (congrArg (fun pass => pass.1.objectCode) hencoded).symm
    simp [hblock, unresolvedNames]
  · have hnotices := notices_resolve encoded.symbols objectCode
    cases hresolved : (resolve encoded.symbols objectCode).result with
    | error problem => simpa [Block.secondPass, hresolved] using hnotices
    | ok code => simpa [Block.secondPass, hresolved] using hnotices

theorem withoutProgress_outcome (segment : Segment) :
    Notice.withoutProgress segment.outcome.notices = segment.outcome.notices := by
  rw [segment.notices_outcome, Notice.withoutProgress_replicate]

/-- The segments that are assembled, one after the other: all up to the first one that fails. -/
def attempted : List Segment → List Segment
  | [] => []
  | segment :: rest =>
    match segment.outcome.result with
    | .error _ => [segment]
    | .ok () => segment :: attempted rest

end Segment

/-! ## Assembling quietly -/

namespace Image

theorem laySegments_quiet (quiet : Bool) (image : Image) (segments : List Segment) :
    laySegments true image segments = (laySegments quiet image segments).silenced := by
  induction segments generalizing image with
  | nil => rfl
  | cons segment rest ih =>
      cases houtcome : segment.outcome.result with
      | error problem =>
          rw [laySegments_cons_of_error true image rest houtcome,
            laySegments_cons_of_error quiet image rest houtcome, Report.silenced,
            segment.withoutProgress_outcome]
      | ok done =>
          rw [laySegments_cons_of_assembles true image rest houtcome,
            laySegments_cons_of_assembles quiet image rest houtcome, Report.silenced_preceded,
            ← ih]
          have hprogress :
              (Notice.assembled segment.execCode.length segment.origin).isProgress = true := rfl
          simp only [noticesOf, Notice.withoutProgress_append, segment.withoutProgress_outcome,
            Notice.withoutProgress_unlessQuiet hprogress]

theorem notices_laySegments_quiet (image : Image) (segments : List Segment) :
    (laySegments true image segments).notices =
      List.replicate ((Segment.attempted segments).flatMap Segment.unresolved).length
        .labelNotFound := by
  induction segments generalizing image with
  | nil => rfl
  | cons segment rest ih =>
      cases houtcome : segment.outcome.result with
      | error problem =>
          rw [laySegments_cons_of_error true image rest houtcome, segment.notices_outcome]
          simp [Segment.attempted, houtcome]
      | ok done =>
          rw [laySegments_cons_of_assembles true image rest houtcome, Report.preceded, ih,
            noticesOf, segment.notices_outcome]
          simp [Segment.attempted, houtcome, Notice.unlessQuiet]

theorem assemble_quiet (content : Text) (quiet : Bool) :
    assemble content true = (assemble content quiet).silenced := by
  unfold assemble
  cases Segment.ofFile content with
  | error problem => rfl
  | ok segments => exact laySegments_quiet quiet blank segments

end Image

/-! ## Running quietly -/

namespace CommandLine

namespace Settings

def silenced (settings : Settings) : Settings :=
  { settings with quiet := true }

theorem assembleSource_silenced (settings : Settings) (look : Text → Lookup) :
    settings.silenced.assembleSource look = (settings.assembleSource look).silenced := by
  unfold assembleSource
  have hsource : settings.silenced.source = settings.source := rfl
  have hquiet : settings.silenced.quiet = true := rfl
  rw [hsource, hquiet]
  split
  · rfl
  · split
    · rfl
    · rfl
    next content _ =>
        rw [Image.assemble_quiet content settings.quiet]
        rfl

theorem makeImage_silenced (settings : Settings) (look : Text → Lookup) :
    settings.silenced.makeImage look = (settings.makeImage look).silenced := by
  have hmap : settings.silenced.applyMap look = settings.applyMap look := rfl
  have hpath : settings.silenced.coefficientsPath = settings.coefficientsPath := rfl
  have hquiet : settings.silenced.quiet = true := rfl
  have hnotice := Notice.withoutProgress_unlessQuiet
    (show (Notice.writingCoefficients settings.coefficientsPath).isProgress = true from rfl)
    settings.quiet
  unfold makeImage
  rw [assembleSource_silenced, hmap, hpath, hquiet]
  simp only [Report.silenced]
  cases (settings.assembleSource look).result.bind (settings.applyMap look) with
  | error failure => rfl
  | ok mapped =>
      cases mapped with
      | some image => rfl
      | none => simp only [Notice.withoutProgress_append, hnotice]

end Settings

theorem writeOutputs_quiet
    (quiet : Bool) (disk : Disk) {outputs : List Output}
    (hprogress : ∀ output ∈ outputs, output.notice.isProgress = true) :
    writeOutputs true disk outputs =
      ((writeOutputs quiet disk outputs).1, (writeOutputs quiet disk outputs).2.silenced) := by
  induction outputs generalizing disk with
  | nil => rfl
  | cons output rest ih =>
      obtain ⟨hfirst, hrest⟩ := List.forall_mem_cons.mp hprogress
      have hnotice := Notice.withoutProgress_unlessQuiet hfirst quiet
      simp only [writeOutputs]
      cases disk.write output.path output.content with
      | error fault => simp only [Report.silenced, hnotice]
      | ok written => simp only [ih written hrest, Report.silenced_preceded, hnotice]

namespace Settings

theorem isProgress_of_mem_outputs
    {settings : Settings} {image : Image} {output : Output}
    (houtput : output ∈ settings.outputs image) :
    output.notice.isProgress = true := by
  unfold outputs at houtput
  rcases List.mem_cons.mp houtput with rfl | hmemory
  · rfl
  · split at hmemory
    · simp at hmemory
    · obtain rfl := List.mem_singleton.mp hmemory
      rfl

theorem run_silenced (settings : Settings) (disk : Disk) :
    settings.silenced.run disk = ((settings.run disk).1, (settings.run disk).2.silenced) := by
  have houtputs : settings.silenced.outputs = settings.outputs := rfl
  have hquiet : settings.silenced.quiet = true := rfl
  unfold run
  rw [makeImage_silenced, houtputs, hquiet]
  simp only [Report.silenced]
  cases (settings.makeImage disk.look).result with
  | error failure => rfl
  | ok image =>
      simp only [writeOutputs_quiet settings.quiet disk fun _ => isProgress_of_mem_outputs,
        Report.silenced, Report.preceded, Notice.withoutProgress_append]

/-- The segments that a run gets to, with the source as it is on the disk. -/
def attempted (settings : Settings) (disk : Disk) : List Segment :=
  match disk.look settings.source with
  | .absent | .folder => []
  | .file content =>
    match Segment.ofFile content with
    | .error _ => []
    | .ok segments => Segment.attempted segments

def unresolvedCount (settings : Settings) (disk : Disk) : Nat :=
  ((settings.attempted disk).flatMap Segment.unresolved).length

theorem unresolvedCount_silenced (settings : Settings) (disk : Disk) :
    settings.silenced.unresolvedCount disk = settings.unresolvedCount disk := rfl

theorem notices_assembleSource
    {settings : Settings} (hquiet : settings.quiet = true) (disk : Disk) :
    (settings.assembleSource disk.look).notices =
      List.replicate (settings.unresolvedCount disk) .labelNotFound := by
  unfold assembleSource unresolvedCount attempted
  split
  next hsource =>
      have habsent : disk.look [] = .absent := rfl
      rw [hsource, habsent]
      rfl
  next =>
      cases disk.look settings.source with
      | absent => rfl
      | folder => rfl
      | file content =>
          simp only [hquiet, Image.assemble]
          cases Segment.ofFile content with
          | error problem => rfl
          | ok segments => exact Image.notices_laySegments_quiet _ segments

end Settings

theorem notices_writeOutputs (disk : Disk) (outputs : List Output) :
    (writeOutputs true disk outputs).2.notices = [] := by
  induction outputs generalizing disk with
  | nil => rfl
  | cons output rest ih =>
      simp only [writeOutputs]
      cases disk.write output.path output.content with
      | error fault => rfl
      | ok written => exact ih written

namespace Settings

/-- A quiet run tells nothing but the labels that are not found. -/
theorem notices_run
    {settings : Settings} (hquiet : settings.quiet = true) (disk : Disk) :
    (settings.run disk).2.notices =
      List.replicate (settings.unresolvedCount disk) .labelNotFound := by
  have hmade : (settings.makeImage disk.look).notices =
      (settings.assembleSource disk.look).notices := by
    cases hmapped :
        (settings.assembleSource disk.look).result.bind (settings.applyMap disk.look) with
    | error failure => simp [makeImage, hmapped]
    | ok mapped => cases mapped <;> simp [makeImage, hmapped, hquiet, Notice.unlessQuiet]
  rw [← notices_assembleSource hquiet disk, ← hmade]
  cases hresult : (settings.makeImage disk.look).result with
  | error failure => simp [run, hresult]
  | ok image => simp [run, hresult, hquiet, Report.preceded, notices_writeOutputs]

end Settings

/-! ## Asking for quiet -/

namespace Draft

def silenced (draft : Draft) : Draft :=
  { draft with quiet := true }

theorem give_silenced (draft : Draft) (parameter : Parameter) (value : Text) :
    draft.silenced.give parameter value = (draft.give parameter value).silenced := by
  cases parameter <;> rfl

theorem raiseFlags_silenced (draft : Draft) (flags : List Flag) :
    draft.silenced.raiseFlags flags = (draft.raiseFlags flags).map silenced := by
  induction flags generalizing draft with
  | nil => rfl
  | cons flag rest ih =>
      cases flag with
      | help => rfl
      | coeOnly => exact ih { draft with coeOnly := true }
      | quiet => exact ih { draft with quiet := true }

theorem finish_silenced (draft : Draft) :
    draft.silenced.finish = draft.finish.map Settings.silenced := by
  obtain ⟨source, map, output, coeOnly, quiet, extras⟩ := draft
  cases source with
  | none => rfl
  | some source => cases extras <;> rfl

end Draft

theorem Draft.map_give_silenced
    (draft : Draft) (flags : List Flag) (parameter : Parameter) (value : Text) :
    (draft.silenced.raiseFlags flags).map (·.give parameter value) =
      ((draft.raiseFlags flags).map (·.give parameter value)).map silenced := by
  rw [raiseFlags_silenced]
  cases draft.raiseFlags flags with
  | error stop => rfl
  | ok raised => exact congrArg Except.ok (raised.give_silenced parameter value)

theorem takeArguments_silenced (draft : Draft) (arguments : List Argument) :
    takeArguments draft.silenced arguments =
      (takeArguments draft arguments).map Draft.silenced := by
  have hsource (draft : Draft) : draft.silenced.source = draft.source := rfl
  fun_induction takeArguments draft arguments with
  | case1 draft => rfl
  | case2 draft text rest ih => exact ih
  | case3 draft text rest hgiven ih =>
      rw [takeArguments, hsource, if_pos hgiven]
      exact ih
  | case4 draft text rest hgiven ih =>
      rw [takeArguments, hsource, if_neg hgiven]
      exact ih
  | case5 draft text rest hnext hgiven ih =>
      rw [takeArguments.eq_4 _ _ _ hnext, hsource, if_pos hgiven]
      exact ih
  | case6 draft text rest hnext hgiven ih =>
      rw [takeArguments.eq_4 _ _ _ hnext, hsource, if_neg hgiven]
      exact ih
  | case7 draft rest hgiven ih =>
      rw [takeArguments, hsource, if_pos hgiven]
      exact ih
  | case8 draft rest hgiven ih =>
      rw [takeArguments, hsource, if_neg hgiven]
      exact ih
  | case9 draft switch byLetter attached rest stop hcluster =>
      simp only [takeArguments, hcluster]
      rfl
  | case10 draft switch byLetter attached rest flags hcluster stop hraise =>
      simp only [takeArguments, hcluster, draft.raiseFlags_silenced, hraise]
      rfl
  | case11 draft switch byLetter attached rest flags hcluster raised hraise ih =>
      simp only [takeArguments, hcluster, draft.raiseFlags_silenced, hraise]
      exact ih
  | case12 draft switch byLetter attached rest flags parameter value hcluster stop hgive =>
      simp only [takeArguments, hcluster, draft.map_give_silenced, hgive]
      rfl
  | case13 draft switch byLetter attached rest flags parameter value hcluster given hgive ih =>
      simp only [takeArguments, hcluster, draft.map_give_silenced, hgive]
      exact ih
  | case14 draft switch byLetter attached flags parameter hcluster value later stop hgive =>
      simp only [takeArguments, hcluster, draft.map_give_silenced, hgive]
      rfl
  | case15 draft switch byLetter attached flags parameter hcluster value later given hgive ih =>
      simp only [takeArguments, hcluster, draft.map_give_silenced, hgive]
      exact ih
  | case16 draft switch byLetter attached rest flags parameter hcluster hnext =>
      simp only [takeArguments, hcluster]
      rfl

theorem readSettings_quiet (arguments : List Text) :
    readSettings ("--quiet".toList :: arguments) =
      (readSettings arguments).map Settings.silenced := by
  have hfirst : Argument.ofTexts ("--quiet".toList :: arguments) =
      (Argument.ofTexts arguments).map (.call (.flag .quiet) false none :: ·) := rfl
  unfold readSettings
  rw [hfirst]
  cases Argument.ofTexts arguments with
  | error problem => rfl
  | ok taken =>
      have hcall : takeArguments {} (.call (.flag .quiet) false none :: taken) =
          takeArguments (Draft.silenced {}) taken := rfl
      simp only [Except.map, hcall, takeArguments_silenced]
      cases takeArguments {} taken with
      | error stop => rfl
      | ok draft => exact draft.finish_silenced

theorem stdout_run
    {arguments : List Text} {settings : Settings}
    (hsettings : readSettings arguments = .ok settings) (disk : Disk) :
    (run arguments disk).stdout = Notice.printed (settings.run disk).2.notices := by
  simp only [run, hsettings]

/-- Whether the command line asks for quiet makes no difference to how a run ends and what it
writes. A quiet run tells one line for each label that is not found, which is what the other run
tells without its progress. -/
theorem run_quiet (arguments : List Text) (disk : Disk) :
    readSettings ("--quiet".toList :: arguments) =
        (readSettings arguments).map Settings.silenced ∧
      ∀ quietArguments,
        readSettings quietArguments = (readSettings arguments).map Settings.silenced →
        (run quietArguments disk).ending = (run arguments disk).ending ∧
        (run quietArguments disk).stderr = (run arguments disk).stderr ∧
        (run quietArguments disk).disk = (run arguments disk).disk ∧
        ∀ settings, readSettings arguments = .ok settings →
          (run quietArguments disk).stdout =
            (List.replicate (settings.unresolvedCount disk)
              "ERROR: Label not found\n".toList).flatten ∧
          (run arguments disk).stdout = Notice.printed (settings.run disk).2.notices ∧
          (run quietArguments disk).stdout =
            Notice.printed (Notice.withoutProgress (settings.run disk).2.notices) := by
  refine ⟨readSettings_quiet arguments, ?_⟩
  intro quietArguments hquiet
  cases hsettings : readSettings arguments with
  | error stop =>
      rw [hsettings] at hquiet
      have hsame : run quietArguments disk = run arguments disk := by
        simp only [run, hquiet, hsettings, Except.map]
      simp [hsame]
  | ok settings =>
      have hsilenced : readSettings quietArguments = .ok settings.silenced := by
        rw [hquiet, hsettings]
        rfl
      have hstdout := stdout_run hsilenced disk
      refine ⟨?_, ?_, ?_, ?_⟩
      · simp only [run, hsilenced, hsettings, settings.run_silenced, Report.silenced]
      · simp only [run, hsilenced, hsettings]
      · simp only [run, hsilenced, hsettings, settings.run_silenced]
      · rintro _ ⟨⟩
        refine ⟨?_, stdout_run hsettings disk, ?_⟩
        · rw [hstdout, Settings.notices_run rfl, settings.unresolvedCount_silenced, Notice.printed,
            List.flatMap_replicate]
          rfl
        · rw [hstdout, settings.run_silenced]
          rfl

/-- A label of the first segment is not found, and the second segment fails at its first label. The
third segment is never looked at. -/
theorem run_quiet_until_failure :
    let source := ".org $10\nl: bne l\nbne g\n.org $20\nbne g\nbne g\n.org $30\nbne g\n".toList
    let disk : Disk := ⟨[(["prog".toList], source)]⟩
    let loud := run ["prog".toList] disk
    let quiet := run ["prog".toList, "-q".toList] disk
    quiet.ending = .failed (.wrong .noPosition) ∧
      quiet.ending = loud.ending ∧
      quiet.disk = loud.disk ∧
      quiet.stdout = (List.replicate 2 "ERROR: Label not found\n".toList).flatten ∧
      loud.stdout = Notice.printed [.labelNotFound, .assembled 4 0x10, .labelNotFound] := by
  intro source disk loud quiet
  let settings : Settings := ⟨"prog".toList, none, none, false, false⟩
  let first : Segment := ⟨0x10, [⟨2, "l: bne l".toList⟩, ⟨3, "bne g".toList⟩]⟩
  let second : Segment := ⟨0x20, [⟨5, "bne g".toList⟩, ⟨6, "bne g".toList⟩]⟩
  let third : Segment := ⟨0x30, [⟨8, "bne g".toList⟩]⟩
  have hsettings : readSettings ["prog".toList] = .ok settings := rfl
  have hsegments : Segment.ofFile source = .ok (Segment.arranged [first, second, third]) := by
    unfold source first second third
    rfl
  have harranged : Segment.arranged [first, second, third] = [first, second, third] :=
    Segment.arranged_eq_of_ascending (List.Perm.refl _) (by decide)
  rw [harranged] at hsegments
  have hfirst : first.outcome = ⟨[.labelNotFound], .ok ()⟩ := by
    unfold first
    rfl
  have hsecond : second.outcome = ⟨[.labelNotFound], .error .noPosition⟩ := by
    unfold second
    rfl
  have hlook : disk.look settings.source = .file source := rfl
  have hcount : settings.unresolvedCount disk = 2 := by
    have hnames : first.unresolved = ["g".toList] ∧ second.unresolved = ["g".toList] := by
      unfold first second
      exact ⟨rfl, rfl⟩
    simp [Settings.unresolvedCount, Settings.attempted, hlook, hsegments, Segment.attempted,
      hfirst, hsecond, hnames]
  have hassemble : Image.assemble source false =
      ⟨[.labelNotFound, .assembled 4 0x10, .labelNotFound], .error .noPosition⟩ := by
    have hsize : first.execCode.length = 4 := by
      unfold first
      rfl
    simp only [Image.assemble, hsegments]
    rw [Image.laySegments_cons_of_assembles false _ _ (congrArg Report.result hfirst),
      Image.laySegments_cons_of_error false _ _ (congrArg Report.result hsecond),
      Image.noticesOf, hfirst, hsecond, hsize]
    rfl
  have hrun : (settings.run disk).2 =
      ⟨[.labelNotFound, .assembled 4 0x10, .labelNotFound], .error (.wrong .noPosition)⟩ := by
    have hmade : settings.makeImage disk.look =
        ⟨[.labelNotFound, .assembled 4 0x10, .labelNotFound], .error (.wrong .noPosition)⟩ := by
      have hsource : settings.source ≠ [] := by decide
      have hquiet : settings.quiet = false := rfl
      simp only [Settings.makeImage, Settings.assembleSource, if_neg hsource, hlook, hquiet,
        hassemble]
      rfl
    simp only [Settings.run, hmade]
  obtain ⟨hending, -, hdisk, hstdout⟩ := (run_quiet ["prog".toList] disk).2
    ["prog".toList, "-q".toList] rfl
  obtain ⟨hquiet, hloud, -⟩ := hstdout settings hsettings
  rw [hcount] at hquiet
  rw [hrun] at hloud
  have hfails : loud.ending = .failed (.wrong .noPosition) := by
    simp only [loud, run, hsettings, hrun]
  exact ⟨hending.trans hfails, hending, hdisk, hquiet, hloud⟩

end CommandLine

end Assembler6502
