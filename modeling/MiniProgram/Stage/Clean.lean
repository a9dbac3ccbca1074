import MiniProgram.Stage

/-!
The stages around a build: one empties the output directory before it, one accompanies it and leaves
everything as it is.
-/

namespace MiniProgram

namespace Stage

/-- Removes the output directory before the build. -/
def clean : StageMaker := fun d => do
  let project ← d.needProject "clean"
  d.needFiles "clean"
  return { idle "clean" .clean with
    start := some fun fs => (fs.removeAll project.outDir).mapError fun e =>
      .of .cleanFailed
        ("failed to clean output directory " ++ project.outDir ++ ": " ++ e.message) }

/-- Accompanies the build. -/
def progress : StageMaker := fun _ =>
  return { idle "progress" .report with
    filter := some .all
    start := some fun fs => .ok fs
    transform := some .ok
    finish := some fun _ b => .ok b }

end Stage

end MiniProgram
