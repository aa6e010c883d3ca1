import EnvAudit.FileTree.Access
import EnvAudit.Proofs.RealPath

/-!
# Trees that differ at one location

What is put at a location, where no directory was, changes nothing elsewhere (`agreeBut_put`). If
both trees have a file there, they have one shape, so a name leads to the same place in both; and
unless that is the file, it has the same text (`DifferIn.readText_eq`).
-/
namespace EnvAudit

namespace FileNode

theorem at?_cons_of_isDir_eq_false {node : FileNode} (h : node.isDir = false) (name : Text)
    (rest : Location) : node.at? (name :: rest) = none := by
  cases node <;> simp_all [at?, entries, entryAt?, isDir]

/-- Directories are on the way to what was put somewhere. -/
theorem at?_put_above (new : FileNode) {loc rest : Location} (hne : rest ≠ []) (node : FileNode) :
    ∃ es, (put new (loc ++ rest) node).at? loc = some (.dir es) := by
  induction loc generalizing node with
  | nil =>
    cases rest with
    | nil => exact absurd rfl hne
    | cons name rest => exact ⟨_, rfl⟩
  | cons n loc ih =>
    obtain ⟨es, hes⟩ := ih ((entryAt? n node.entries).getD (.dir []))
    refine ⟨es, ?_⟩
    rw [List.cons_append, put, at?_cons, entries_dir, entryAt?_setEntry_self, Option.bind_some, hes]

end FileNode

namespace FileTree

open FileNode

/-- Whether files are the same but for what is at one location. -/
structure AgreeBut (t t' : FileTree) (loc : Location) : Prop where
  here : t'.here = t.here
  repositories : t'.repositories = t.repositories
  outline : ∀ other, other ≠ loc → (t'.at? other).map outline = (t.at? other).map outline

section

variable {t t' : FileTree} {loc : Location} {node : FileNode}

/-- A file elsewhere has the same bytes. -/
theorem AgreeBut.file (h : t.AgreeBut t' loc) {other : Location} (hne : other ≠ loc)
    {bytes : List UInt8} (hat : t.at? other = some (.file bytes)) :
    t'.at? other = some (.file bytes) := by
  have ho := h.outline other hne
  rw [hat] at ho
  obtain ⟨m, hm, hmo⟩ := Option.map_eq_some_iff.mp ho
  have he : m = .file bytes := (outline_eq_iff rfl).mp hmo
  rw [hm, he]

theorem at?_put_self : (t.put loc node).at? loc = some node := FileNode.at?_put_self ..

/-- Where no directory was, a new entry changes nothing else, if there is a directory for it. -/
theorem agreeBut_put (hnew : node.isDir = false)
    (hold : ∀ old, t.at? loc = some old → old.isDir = false)
    (habove : ∀ base name, loc = base ++ [name] → t.IsRealDir base) :
    t.AgreeBut (t.put loc node) loc := by
  refine ⟨rfl, rfl, fun other hne => ?_⟩
  by_cases hbelow : loc <+: other
  · obtain ⟨rest, rfl⟩ := hbelow
    cases rest with
    | nil => simp at hne
    | cons name rest =>
      rw [at?_append, at?_append, at?_put_self, Option.bind_some,
        at?_cons_of_isDir_eq_false hnew]
      cases hl : t.at? loc with
      | none => rfl
      | some old => rw [Option.bind_some, at?_cons_of_isDir_eq_false (hold old hl)]
  · by_cases hon : other <+: loc
    · obtain ⟨rest, rfl⟩ := hon
      rcases List.eq_nil_or_concat rest with rfl | ⟨between, name, rfl⟩
      · simp at hne
      · rw [List.concat_eq_append] at habove ⊢
        have hrest : between ++ [name] ≠ [] := by simp
        obtain ⟨es, hes⟩ := (habove (other ++ between) name (by simp)).of_append
        obtain ⟨es', hes'⟩ := at?_put_above node hrest t.root
        rw [hes, put, at?, hes']
        rfl
    · rw [put, at?, at?_put_of_not_below hbelow hon]
      rfl

/-- A file with other bytes changes nothing else. -/
theorem agreeBut_put_file {old : List UInt8} (hat : t.at? loc = some (.file old))
    (new : List UInt8) : t.AgreeBut (t.put loc (.file new)) loc := by
  refine agreeBut_put rfl ?_ ?_
  · intro m hm
    rw [hat] at hm
    cases hm
    rfl
  · rintro base name rfl
    exact .of_at? hat

end

/-! ## The bytes of one file -/

/-- Whether files are the same but for the bytes of one. -/
structure DifferIn (t t' : FileTree) (loc : Location) : Prop where
  others : t.AgreeBut t' loc
  isFile : ∃ bytes, t.at? loc = some (.file bytes)
  isFile' : ∃ bytes, t'.at? loc = some (.file bytes)

namespace DifferIn

variable {t t' : FileTree} {loc : Location}

theorem sameShape (h : t.DifferIn t' loc) : SameShape t t' := by
  refine ⟨h.others.here, fun other => ?_⟩
  by_cases hne : other = loc
  · obtain ⟨bytes, hat⟩ := h.isFile
    obtain ⟨bytes', hat'⟩ := h.isFile'
    rw [hne, hat, hat']
    rfl
  · exact map_shape_of_map_outline (h.others.outline other hne)

/-- What does not lead to the file has the same bytes. -/
theorem bytesOf?_eq (h : t.DifferIn t' loc) {p : PathName}
    (hp : ∀ node, t.find? p ≠ .ok (some (loc, node))) : t'.bytesOf? p = t.bytesOf? p := by
  rw [bytesOf?, bytesOf?]
  rcases h.sameShape.find?_cases p with ⟨heq, -⟩ | ⟨l, node, node', hf, hf', hs⟩
  · rw [heq]
  have hne : l ≠ loc := by
    rintro rfl
    exact hp node hf
  rw [hf, hf']
  cases node with
  | file bytes =>
    have hat := h.others.file hne (at?_of_find? hf)
    rw [at?_of_find? hf'] at hat
    cases hat
    rfl
  | dir _ | link _ | pipe => cases node' <;> simp_all [FileNode.shape]

theorem readText_eq (h : t.DifferIn t' loc) {p : PathName}
    (hp : ∀ node, t.find? p ≠ .ok (some (loc, node))) (maxSize : Int) :
    t'.readText p maxSize = t.readText p maxSize := by
  rw [readText, readText, h.bytesOf?_eq hp]

end DifferIn

theorem differIn_put {t : FileTree} {loc : Location} {old : List UInt8}
    (hat : t.at? loc = some (.file old)) (new : List UInt8) :
    t.DifferIn (t.put loc (.file new)) loc :=
  ⟨agreeBut_put_file hat new, ⟨old, hat⟩, ⟨new, at?_put_self⟩⟩

end FileTree
end EnvAudit
