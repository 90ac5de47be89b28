import UnitCompiler.Proofs.ImageRoundTrip
import UnitCompiler.Proofs.Lists
import UnitCompiler.Proofs.PipelineSteps

/-! What a compilation hands out is read back as far as images are. The artifacts of every unit that
leaves the pipeline are the images of its declaration. -/

namespace UnitCompiler

def CompiledUnit.Imaged (c : CompiledUnit) : Prop :=
  Image.generate c.declared.unit.fileName c.declared.declaration = .ok c.artifacts

def CompiledUnit.image (c : CompiledUnit) : Image :=
  ⟨c.declared.unit.fileName, c.declared.declaration⟩

theorem CompiledUnit.Imaged.artifacts_eq {c : CompiledUnit} (imaged : c.Imaged) :
    c.artifacts = [⟨Image.artifactName c.declared.declaration.qualifiedName, c.image.encode⟩] := by
  rw [Imaged, Image.generate] at imaged
  split at imaged
  · exact (Except.ok.inj imaged).symm
  · cases imaged

theorem imageBackend_ok {sourceFile : String} {declaration : TypeDeclaration} {artifacts : List Artifact}
    (made : Toolchain.imageBackend sourceFile declaration = .ok artifacts) :
    Image.generate sourceFile declaration = .ok artifacts := by
  cases generated : Image.generate sourceFile declaration with
  | ok list =>
    rw [Toolchain.imageBackend, generated] at made
    cases made
    rfl
  | error e =>
    rw [Toolchain.imageBackend, generated] at made
    cases made

namespace Pipeline

variable {p q : Pipeline}

structure Imaged (p : Pipeline) : Prop where
  standard : p.toolchain = .standard
  sending : ∀ job ∈ p.jobs, ∀ c, job.phase = .sending c → c.Imaged
  compiled : ∀ c ∈ p.received ++ p.compiled, c.Imaged

namespace Imaged

theorem setJob (imaged : p.Imaged) {index : Nat} {job : Job} (there : p.jobs[index]? = some job)
    (phase : JobPhase) (sending : ∀ c, phase = .sending c → c.Imaged) :
    Imaged (p.setJob index phase) := by
  refine { imaged with sending := fun other member c waits => ?_ }
  rcases mem_modify there member with rfl | old
  · exact sending c waits
  · exact imaged.sending other old c waits

theorem move (imaged : p.Imaged) (move : p.Move q) : q.Imaged := by
  have compiled : ∀ c ∈ q.received ++ q.compiled, c.Imaged := by
    intro c held
    rcases move.delivers held with old | ⟨job, member, phase⟩
    · exact imaged.compiled c old
    · exact imaged.sending job member c phase
  cases move with
  | exhaust | accept | skip | abort | endTypes | endMethods | endResolution | join | tables | enter | read
  | refuse | register | declare | bar | inquire | emit | lose | diagnose | diagnosed | send | close
  | joinJobs | report => exact { imaged with }
  | receive stage unit rest =>
    refine { imaged with sending := fun job member c waits => ?_ }
    rcases List.mem_append.mp member with old | new
    · exact imaged.sending job old c waits
    · cases List.mem_singleton.mp new
      contradiction
  | enterJob index job there => exact { imaged.setJob there .generating (by simp) with }
  | generate index job there phase artifacts generated =>
    refine { imaged.setJob there (.sending ⟨job.declared, artifacts⟩) fun c same => ?_ with }
    cases same
    rw [imaged.standard] at generated
    exact imageBackend_ok generated
  | reject index job there | abandon index job there =>
    exact { imaged.setJob there .finished (by simp) with }
  | publish index job there => exact { imaged.setJob there .finished (by simp) with compiled }
  | consume | consumeLast | consumeOne => exact { imaged with compiled }

end Imaged

theorem execute_imaged {settings : Settings} {input : List Input} {wanted : Option Nat}
    {schedule : List Action} (ran : (start .standard settings input wanted).execute schedule = some p) :
    p.Imaged :=
  execute_induction (fun _ _ => Imaged.move) schedule _ _
    ⟨rfl, by simp [start], by simp [start]⟩ ran

/-- Every unit that is received has one artifact. Reading it gives the file name and the declaration back
exactly if the payload nests no deeper than 127 levels and all decimals in it read back as they are; a
deeper payload cannot be read at all. -/
theorem received_readable_iff (settings : Settings) (input : List Input) (wanted : Option Nat)
    (schedule : List Action) (p : Pipeline)
    (ran : (start .standard settings input wanted).execute schedule = some p)
    (c : CompiledUnit) (received : c ∈ p.received) :
    ∃ artifact, c.artifacts = [artifact] ∧
      (Image.decode artifact.bytes = .ok ⟨c.declared.unit.fileName, c.declared.declaration⟩ ↔
        c.image.payload.depth ≤ 127 ∧ Legible c.declared.declaration.parts) ∧
      (127 < c.image.payload.depth → Image.decode artifact.bytes = .error .malformedPayload) := by
  have imaged := (execute_imaged ran).compiled c (List.mem_append_left _ received)
  exact ⟨_, imaged.artifacts_eq, c.image.decode_encode_eq_ok_iff, c.image.decode_encode_of_deep⟩

/-- A compilation of one unit, which prints a decimal. -/
def printing (decimal : String) : Pipeline :=
  start .standard {} [.unit
    { fileName := "A.firefly", relativePath := "m", content := .text ("print(" ++ decimal ++ ")") }] none

theorem half_printed_readable : ∃ schedule p c artifact,
    (printing "0.5").execute schedule = some p ∧ p.reported = [] ∧ c ∈ p.received ∧
    c.artifacts = [artifact] ∧
    Image.decode artifact.bytes = .ok ⟨c.declared.unit.fileName, c.declared.declaration⟩ := by
  obtain ⟨schedule, ran⟩ := run_execute (printing "0.5")
  obtain ⟨c, received⟩ : ∃ c, (printing "0.5").run.received = [c] :=
    List.length_eq_one_iff.mp (by decide +kernel)
  have member : c ∈ (printing "0.5").run.received := by simp [received]
  have fine : ∀ c ∈ (printing "0.5").run.received,
      c.image.payload.depth ≤ 127 ∧ Legible c.declared.declaration.parts := by
    decide +kernel
  obtain ⟨artifact, only, readable, -⟩ := received_readable_iff _ _ _ schedule _ ran c member
  exact ⟨schedule, _, c, artifact, ran, by decide +kernel, member, only, readable.mpr (fine c member)⟩

/-- The digits of a large decimal are read as a product that is rounded once more. Nothing is reported when
it is compiled, and the double next to it is read back. -/
theorem large_printed_altered : ∃ schedule p c artifact,
    (printing "123456789012345670000.0").execute schedule = some p ∧ p.isFinished = true ∧
    p.reported = [] ∧ p.received = [c] ∧ c.artifacts = [artifact] ∧
    Image.decode artifact.bytes ≠ .ok ⟨c.declared.unit.fileName, c.declared.declaration⟩ := by
  obtain ⟨schedule, ran⟩ := run_execute (printing "123456789012345670000.0")
  obtain ⟨c, received⟩ : ∃ c, (printing "123456789012345670000.0").run.received = [c] :=
    List.length_eq_one_iff.mp (by decide +kernel)
  have member : c ∈ (printing "123456789012345670000.0").run.received := by simp [received]
  have illegible : ∀ c ∈ (printing "123456789012345670000.0").run.received,
      ¬Legible c.declared.declaration.parts := by
    decide +kernel
  have imaged := (execute_imaged ran).compiled c (List.mem_append_left _ member)
  refine ⟨schedule, _, c, _, ran, by decide +kernel, by decide +kernel, received, imaged.artifacts_eq,
    fun read => ?_⟩
  exact illegible c member (c.image.decode_encode_eq_ok_iff.mp read).2

end Pipeline

end UnitCompiler
