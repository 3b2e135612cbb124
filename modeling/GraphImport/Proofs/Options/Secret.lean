import GraphImport.Options.Secret

/-!
# The grammar of secret references

A text is read as a reference exactly when it is the rendering of one whose parts are non-empty
and free of slashes and spaces, and what is read is that reference.
-/

namespace GraphImport.Options.SecretVersion

/-- A reference whose parts are fit to stand between slashes. -/
def Proper (r : SecretVersion) : Prop :=
  isPart r.project.toList ∧ isPart r.secret.toList ∧ isPart r.version.toList

theorem pieces_eq_splitOn (cs : List Char) : pieces cs = cs.splitOn '/' := by
  induction cs with
  | nil => rfl
  | cons c cs ih =>
    rw [pieces, List.splitOn_cons_eq_if_modifyHead, ih]
    cases c == '/' with
    | true => rfl
    | false =>
      cases hrest : cs.splitOn '/' with
      | nil => exact absurd hrest (List.splitOn_ne_nil '/' cs)
      | cons piece rest => rfl

theorem slash_notMem_of_isPart {cs : List Char} (h : isPart cs = true) : '/' ∉ cs := by
  intro hslash
  rw [isPart, Bool.and_eq_true, List.all_eq_true] at h
  exact absurd (h.2 '/' hslash) (by decide)

theorem toList_render (r : SecretVersion) :
    r.render.toList = ['/'].intercalate ["projects".toList, r.project.toList, "secrets".toList,
      r.secret.toList, "versions".toList, r.version.toList] := by
  have hprojects : (toString "projects/").toList = "projects".toList ++ ['/'] := rfl
  have hsecrets : (toString "/secrets/").toList = ['/'] ++ "secrets".toList ++ ['/'] := rfl
  have hversions : (toString "/versions/").toList = ['/'] ++ "versions".toList ++ ['/'] := rfl
  simp only [render, String.toList_append, hprojects, hsecrets, hversions, List.intercalate,
    List.intersperse, List.flatten_cons, List.flatten_nil, List.append_assoc, List.append_nil]
  rfl

theorem Proper.pieces_render {r : SecretVersion} (h : r.Proper) :
    pieces r.render.toList = ["projects".toList, r.project.toList, "secrets".toList,
      r.secret.toList, "versions".toList, r.version.toList] := by
  rw [pieces_eq_splitOn, toList_render]
  apply List.splitOn_intercalate
  · simp only [List.forall_mem_cons, List.not_mem_nil, false_imp_iff, implies_true, and_true]
    exact ⟨by decide, slash_notMem_of_isPart h.1, by decide, slash_notMem_of_isPart h.2.1,
      by decide, slash_notMem_of_isPart h.2.2⟩
  · exact List.cons_ne_nil _ _

/-- The references that are read are the proper ones, each from its own rendering. -/
theorem parse?_eq_some {s : String} {r : SecretVersion} :
    parse? s = some r ↔ r.Proper ∧ r.render = s := by
  constructor
  · intro h
    unfold parse? at h
    split at h
    next a project b secret c version hpieces =>
      split at h
      next hparts =>
        simp only [Bool.and_eq_true, beq_iff_eq] at hparts
        obtain ⟨⟨⟨⟨⟨rfl, rfl⟩, rfl⟩, hproject⟩, hsecret⟩, hversion⟩ := hparts
        cases Option.some.inj h
        refine ⟨by simp [Proper, hproject, hsecret, hversion], ?_⟩
        rw [← String.toList_inj, toList_render]
        simp only [String.toList_ofList]
        rw [← hpieces, pieces_eq_splitOn]
        exact List.intercalate_splitOn '/'
      next => simp at h
    next => simp at h
  · rintro ⟨hproper, rfl⟩
    obtain ⟨hproject, hsecret, hversion⟩ := id hproper
    unfold parse?
    rw [hproper.pieces_render]
    simp [hproject, hsecret, hversion]

end GraphImport.Options.SecretVersion
