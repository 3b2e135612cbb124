import GraphImport.Proofs.Except
import GraphImport.Proofs.Spec.Reading
import GraphImport.Spec.File

/-!
# What can be loaded

A job spec that was loaded from a file was read from a document in it.
-/

namespace GraphImport.Spec

open Files (Homes Path Tree)

theorem load_eq_ok {files : Tree} {path : Path} {spec : JobSpec} (h : load files path = .ok spec) :
    ∃ raw, JobSpec.ofDocument path.text raw = .ok spec := by
  unfold load at h
  obtain ⟨text, _, h⟩ := except_bind_eq_ok.mp h
  obtain ⟨raw, _, h⟩ := except_bind_eq_ok.mp h
  exact ⟨raw, except_mapError_eq_ok.mp h⟩

theorem loadForRun_eq_ok {homes : Homes} {files : Tree} {location : String} {spec : JobSpec}
    (h : loadForRun homes files location = .ok spec) :
    ∃ origin raw, JobSpec.ofDocument origin raw = .ok spec := by
  unfold loadForRun at h
  cases hpath : (Path.ofText location).expandHome? homes with
  | none => simp [hpath] at h
  | some path =>
    rw [hpath] at h
    exact ⟨path.text, load_eq_ok (except_mapError_eq_ok.mp h)⟩

end GraphImport.Spec
