/-
  Opening the loading of a manifest.

  * `Project.load_eq_ok`: the text is read, and the manifest in it makes the project.
  * `Manifest.toProject_eq_ok`: nothing is wrong with the manifest, and each of its units is read.
-/
import InterfaceGuards.Manifest.Load
import InterfaceGuards.Proofs.Result

namespace InterfaceGuards

theorem Manifest.toProject_eq_ok {m : Manifest} {baseDir : Path} {p : Project} :
    m.toProject baseDir = .ok p ↔
      m.violations = [] ∧ ∃ us, m.units.mapM (readUnit baseDir) = .ok us ∧
        p = ⟨m, baseDir, ⟨us⟩⟩ := by
  unfold toProject
  cases m.violations with
  | cons e es => simp
  | nil =>
    simp only [true_and]
    rw [bind_eq_ok]
    exact exists_congr fun us => and_congr_right fun _ => by simp [eq_comm]

theorem Project.load_eq_ok {text : String} {baseDir : Path} {p : Project} :
    load text baseDir = .ok p ↔
      ∃ m, (Toml.parse? text).bind Manifest.ofToml? = some m ∧ m.toProject baseDir = .ok p := by
  unfold load
  cases (Toml.parse? text).bind Manifest.ofToml? with
  | none => simp
  | some m => simp

end InterfaceGuards
