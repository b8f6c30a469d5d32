import JavaStubs.Proofs.FaultyWrites
import JavaStubs.Stubs.Generator

/-!
# Histories of a generator

Calls on one generator, one after the other, on a disk with faults. What they did is told as a list
of events, and the registry is a function of it: it holds the stubs that were written since the last
cleaning that succeeded, each one once, in the order in which they were written first. Everything
else leaves the registry alone. A write that failed touched no file but its own.
-/
namespace JavaStubs

/-- Whether a new last element of a list without duplicates stays depends on the elements before. -/
theorem eraseDupsBy_concat {α : Type} (r : α → α → Bool) (front : List α) (last : α) :
    (front ++ [last]).eraseDupsBy r =
      if (front.eraseDupsBy r).any (r last) then front.eraseDupsBy r
      else front.eraseDupsBy r ++ [last] := by
  have hloop : ∀ kept : List α, List.eraseDupsBy.loop r (front ++ [last]) kept =
      if (List.eraseDupsBy.loop r front kept).any (r last) then List.eraseDupsBy.loop r front kept
      else List.eraseDupsBy.loop r front kept ++ [last] := by
    induction front with
    | nil =>
      intro kept
      simp only [List.nil_append, List.eraseDupsBy.loop, List.any_reverse]
      cases kept.any (r last) <;> simp
    | cons first rest ih =>
      intro kept
      rw [List.cons_append, List.eraseDupsBy.loop, List.eraseDupsBy.loop]
      cases kept.any (r first)
      · exact ih (first :: kept)
      · exact ih kept
  exact hloop []

namespace Stubs

open Files (Disk FaultyTree Deed)
open Files.FileTree (SameFiles Grows)

/-- A call on a generator. -/
inductive Call where
  | render (imports : ImportSet) (decl : ClassDecl)
  | preview (imports : ImportSet) (decl : ClassDecl)
  | generate (imports : ImportSet) (decl : ClassDecl)
  | generateUnit (unit : SourceUnit)
  | clean

/-- What a call did. -/
inductive Event where
  | rendered (content : Option String)
  | previewed (file : Option Preview)
  /-- A class was tried, and it was given back like this. -/
  | tried (decl : ClassDecl) (result : GenerateResult)
  | cleaned (result : Except RemovalError Cleaned)

/-- Whether the event is one that the registry follows: a stub was written, or all were deleted. -/
def Event.counts : Event → Bool
  | .tried _ (.ok (.written _)) => true
  | .cleaned (.ok _) => true
  | _ => false

/-- The stubs written since the last cleaning that succeeded, after one more event. -/
def Event.extend (stubs : List Path) : Event → List Path
  | .tried decl (.ok (.written _)) => stubs ++ [Path.ofDotted decl.name]
  | .cleaned (.ok _) => []
  | _ => stubs

/-- The stubs written since the last cleaning that succeeded, in order. -/
def stubsWritten (events : List Event) : List Path := events.foldl Event.extend []

namespace Generator

/-- The generator after an event. -/
def follow (g : Generator) : Event → Generator
  | .tried decl (.ok (.written _)) => g.register (Path.ofDotted decl.name)
  | .cleaned (.ok _) => { g with registry := g.registry.clear }
  | _ => g

section

variable {m : Type → Type} [Monad m] [Disk m]

/-- Makes a call, and tells what it did. -/
def perform (g : Generator) : Call → m (List Event × Generator)
  | .render imports decl => return ([.rendered (g.render imports decl).1], g)
  | .preview imports decl => return ([.previewed (g.preview imports decl).1], g)
  | .generate imports decl => do
    let (result, decl, g) ← g.generate imports decl
    return ([.tried decl result], g)
  | .generateUnit unit => do
    let (results, unit, g) ← g.generateUnit unit
    return (List.zipWith (fun decl result => .tried decl result.2) unit.classes results, g)
  | .clean => do
    let (result, g) ← g.clean
    return ([.cleaned result], g)

/-- Makes calls one after the other. -/
def performAll (g : Generator) : List Call → m (List Event × Generator)
  | [] => return ([], g)
  | call :: rest => do
    let (events, g) ← g.perform call
    let (others, g) ← g.performAll rest
    return (events ++ others, g)

/-- Generating a unit is generating its classes one after the other. -/
theorem perform_generateUnit [LawfulMonad m] (g : Generator) (unit : SourceUnit) :
    (g.perform (.generateUnit unit) : m _) =
      g.performAll (unit.classes.map (.generate unit.imports)) := by
  have hall : ∀ (decls : List ClassDecl) (g : Generator),
      ((fun run => (List.zipWith (fun decl result => Event.tried decl result.2) run.2.1 run.1,
          run.2.2)) <$> g.generateAll unit.imports decls : m _) =
      g.performAll (decls.map (.generate unit.imports)) := by
    intro decls
    induction decls with
    | nil => simp [generateAll, performAll]
    | cons decl rest ih =>
      intro g
      simp only [generateAll, List.map_cons, performAll, perform, ← ih]
      simp
  rw [← hall]
  simp [perform, generateUnit]

end

section

open Files.FaultyTree (bind_apply pure_apply)

variable (g : Generator) (imports : ImportSet) (decl : ClassDecl) (disk : FaultyTree)

/-- What trying a class comes to: the class is skipped, or its stub is written. -/
theorem generate_cases :
    let run := g.generate (m := StateM FaultyTree) imports decl disk
    (∃ reason, run = ((.ok (.skipped reason), decl, g), disk)) ∨
    ∃ (path : Path) (content : String) (changed : ClassDecl),
      let written := Files.writeFile (m := StateM FaultyTree) path content disk
      (∃ cause, written.1 = .error cause ∧
        run = ((.error ⟨path, cause⟩, changed, g), written.2)) ∨
      written.1 = .ok () ∧ run = ((.ok (.written path), changed,
        g.register (Path.ofDotted changed.name)), written.2) := by
  simp only [generate]
  cases g.decision decl with
  | skip reason => exact Or.inl ⟨reason, rfl⟩
  | render =>
    right
    have hstub : (g.stubFile imports decl).1.stub =
        Path.ofDotted (g.stubFile imports decl).2.name := rfl
    generalize g.stubFile imports decl = printed at hstub ⊢
    obtain ⟨file, changed⟩ := printed
    refine ⟨file.path g.settings.outputDirectory, file.text, changed, ?_⟩
    simp only [bind_apply]
    generalize Files.writeFile (m := StateM FaultyTree) (file.path g.settings.outputDirectory)
      file.text disk = written
    obtain ⟨result, after⟩ := written
    cases result with
    | error cause => exact Or.inl ⟨cause, rfl, rfl⟩
    | ok _ => exact Or.inr ⟨rfl, by rw [← hstub]; rfl⟩

theorem clean_cases :
    let run := g.clean (m := StateM FaultyTree) disk
    (∃ error, run.1 = (.error error, g)) ∨
      ∃ cleaned, run.1 = (.ok cleaned, { g with registry := g.registry.clear }) := by
  simp only [clean, Registry.clean, bind_apply]
  generalize Registry.removeAll (m := StateM FaultyTree) g.registry.base g.registry.paths disk = run
  obtain ⟨result, after⟩ := run
  cases result with
  | error error => exact Or.inl ⟨error, rfl⟩
  | ok cleaned => exact Or.inr ⟨cleaned, rfl⟩

/-- After calls the generator is the one before with the events followed. -/
def Follows (g : Generator) (run : (List Event × Generator) × FaultyTree) : Prop :=
  run.1.2 = run.1.1.foldl follow g

theorem follows_perform_generate :
    g.Follows (g.perform (m := StateM FaultyTree) (.generate imports decl) disk) := by
  simp only [perform, bind_apply, pure_apply, Follows]
  rcases generate_cases g imports decl disk with
    ⟨reason, hrun⟩ | ⟨path, content, changed, ⟨cause, -, hrun⟩ | ⟨-, hrun⟩⟩
  · rw [hrun]
    rfl
  · rw [hrun]
    rfl
  · rw [hrun]
    rfl

/-- Calls follow if each of them does, whatever the generator and the disk are then. -/
theorem follows_performAll {calls : List Call}
    (h : ∀ call ∈ calls, ∀ (g : Generator) (disk : FaultyTree),
      g.Follows (g.perform (m := StateM FaultyTree) call disk)) (g : Generator)
    (disk : FaultyTree) : g.Follows (g.performAll (m := StateM FaultyTree) calls disk) := by
  induction calls generalizing g disk with
  | nil => rfl
  | cons call rest ih =>
    rw [List.forall_mem_cons] at h
    simp only [performAll, bind_apply, pure_apply, Follows, List.foldl_append]
    rw [← h.1 g disk]
    exact ih h.2 _ _

theorem follows_perform (call : Call) (g : Generator) (disk : FaultyTree) :
    g.Follows (g.perform (m := StateM FaultyTree) call disk) := by
  cases call with
  | render imports decl => rfl
  | preview imports decl => rfl
  | generate imports decl => exact follows_perform_generate g imports decl disk
  | generateUnit unit =>
    rw [perform_generateUnit]
    refine follows_performAll (fun call hcall g disk => ?_) g disk
    obtain ⟨decl, -, rfl⟩ := List.mem_map.mp hcall
    exact follows_perform_generate g unit.imports decl disk
  | clean =>
    simp only [perform, bind_apply, pure_apply, Follows]
    rcases clean_cases g disk with ⟨error, hrun⟩ | ⟨cleaned, hrun⟩
    · rw [hrun]
      rfl
    · rw [hrun]
      rfl

end

end Generator

theorem contains_eq_any (registry : Registry) (stub : Path) :
    registry.contains stub = registry.stubs.any stub.same := by
  rw [Registry.contains, List.contains_eq_any_beq, List.any_map]
  rfl

/-- The registry holds some stubs, each one once, in order of first occurrence. -/
theorem stubs_follow {g : Generator} {stubs : List Path}
    (h : g.registry.stubs = stubs.eraseDupsBy Path.same) (event : Event) :
    (g.follow event).registry.stubs = (event.extend stubs).eraseDupsBy Path.same := by
  unfold Generator.follow Event.extend
  split
  · rename_i decl path
    rw [eraseDupsBy_concat, ← h, ← contains_eq_any]
    simp only [Generator.register, Registry.register]
    split <;> simp_all
  · rfl
  · exact h

theorem stubs_foldl_follow {g : Generator} {stubs : List Path}
    (h : g.registry.stubs = stubs.eraseDupsBy Path.same) (events : List Event) :
    (events.foldl Generator.follow g).registry.stubs =
      (events.foldl Event.extend stubs).eraseDupsBy Path.same := by
  induction events generalizing g stubs with
  | nil => exact h
  | cons event rest ih => exact ih (stubs_follow h event)

theorem follow_of_not_counts {event : Event} (h : event.counts = false) (g : Generator) :
    g.follow event = g := by
  unfold Generator.follow
  split
  · simp [Event.counts] at h
  · simp [Event.counts] at h
  · rfl

theorem foldl_follow_of_not_counts {events : List Event}
    (h : ∀ event ∈ events, event.counts = false) (g : Generator) :
    events.foldl Generator.follow g = g := by
  induction events with
  | nil => rfl
  | cons event rest ih =>
    rw [List.forall_mem_cons] at h
    rw [List.foldl_cons, follow_of_not_counts h.1, ih h.2]

/-- What a write that failed leaves: as long as the file was not opened no file has changed, and
after that no other file. -/
def LeftByFailure (path : Path) (before after : FaultyTree) : Prop :=
  after.journal = before.journal ∧ SameFiles (fun _ => False) before.tree after.tree ∨
    ∃ place deeds, FaultyTree.Opened path place deeds before after ∧
      SameFiles (· = place) before.tree after.tree

theorem leftByFailure_generate (g : Generator) (imports : ImportSet) (decl : ClassDecl)
    (disk : FaultyTree) (error : WriteError) :
    let run := g.generate (m := StateM FaultyTree) imports decl disk
    run.1.1 = .error error → LeftByFailure error.path disk run.2 := by
  intro run hfailed
  rcases Generator.generate_cases g imports decl disk with
    ⟨reason, hrun⟩ | ⟨path, content, changed, ⟨cause, -, hrun⟩ | ⟨-, hrun⟩⟩
  · rw [show run = _ from hrun] at hfailed
    cases hfailed
  · rw [show run = _ from hrun] at hfailed ⊢
    obtain rfl := Except.error.inj hfailed
    rcases FaultyTree.writeFile_cases path content disk with
      ⟨-, -, hbuilds⟩ | ⟨place, deeds, hopened⟩
    · exact Or.inl ⟨hbuilds.journal, hbuilds.tree.sameFiles⟩
    · exact Or.inr ⟨place, deeds, hopened, hopened.sameFiles⟩
  · rw [show run = _ from hrun] at hfailed
    cases hfailed

end Stubs

end JavaStubs
