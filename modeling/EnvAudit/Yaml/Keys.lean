import EnvAudit.Yaml.Document

/-!
# Keys of mappings

The mapping that a document stands for has distinct keys (`keysDistinct_of_read`), whatever it merges
and whatever its aliases stand for, since every mapping is put together entry by entry.
-/
namespace EnvAudit.Yaml

open Data Node

/-- Whether the keys are distinct, if a mapping comes out. -/
def MapsOnce (o : Outcome Data) : Prop := ∀ entries, o = .ok (.map entries) → KeysDistinct entries

theorem mapsOnce_error (e : DeepFault) : MapsOnce (.error e) := nofun

theorem mapsOnce_mappingOf (o : Outcome (List (Data × Data))) : MapsOnce (mappingOf o) := by
  rintro entries h
  cases o with
  | error e => cases h
  | ok pairs =>
    cases h
    exact keysDistinct_nil.foldl_insert pairs

/-- What has no entries is no mapping. -/
theorem mapsOnce_map {α : Type} {make : α → Data} (hmake : ∀ a entries, make a ≠ .map entries)
    (o : Outcome α) : MapsOnce (o.map make) := by
  rintro entries h
  cases o with
  | error e => cases h
  | ok a => exact absurd (Except.ok.inj h) (hmake a entries)

theorem isKey_of_orFault {α : Type} {make : α → Data} {x : Except ValueFault α} {d : Data}
    (hmake : ∀ a, x = .ok a → (make a).isKey = true) (h : orFault make x = .ok d) :
    d.isKey = true := by
  cases x with
  | error f => cases h
  | ok a =>
    cases h
    exact hmake a rfl

theorem isKey_of_momentOf {t : Text} {d : Data} (h : momentOf t = .ok d) : d.isKey = true := by
  unfold momentOf at h
  split at h
  · cases h
  · split at h
    · cases h
    · cases h
      split <;> rfl

/-- A scalar stands for data that can be a key. -/
theorem isKey_of_scalarValue {tag : Tag} {t : Text} {d : Data} (h : scalarValue tag t = .ok d) :
    d.isKey = true := by
  cases tag with
  | null | text =>
    cases h
    rfl
  | bool | int | float => exact isKey_of_orFault (fun _ _ => rfl) h
  | timestamp => exact isKey_of_orFault (fun _ ha => isKey_of_momentOf ha) h
  | binary =>
    simp only [scalarValue] at h
    split at h
    · cases h
      rfl
    · cases h
  | sequence | mapping | set | orderedMapping | pairs | merge | value | unknown => cases h

theorem mapsOnce_scalarValue (depth : Nat) (tag : Tag) (t : Text) :
    MapsOnce (atDepth depth (scalarValue tag t)) := by
  rintro entries h
  cases hs : scalarValue tag t with
  | error f =>
    rw [hs] at h
    cases h
  | ok d =>
    rw [hs] at h
    cases h
    exact absurd (isKey_of_scalarValue hs) (by simp [isKey])

theorem mapsOnce_inner (table : List (Text × Node)) (name : Text) :
    MapsOnce (.ok (Node.inner table name)) := by
  rintro entries h
  rw [Except.ok.injEq, Node.inner] at h
  split at h
  · cases h
  · cases h
    exact keysDistinct_nil

/-- What is remembered is what comes out. -/
theorem run_remember (anchor : Option Text) (outcome : Outcome Data) (known : Known) :
    ((remember anchor outcome).run known).1 = outcome := by
  cases anchor <;> cases outcome <;> rfl

theorem run_bind_remember {α : Type} (anchor : Option Text) (x : StateM Known α)
    (f : α → Outcome Data) (known : Known) :
    ((x >>= fun a => remember anchor (f a)).run known).1 = f (x.run known).1 :=
  run_remember anchor _ _

theorem mapsOnce_valueOf (table : List (Text × Node)) (fuel : Nat) (opened : List Text)
    (depth : Nat) (node : Node) : MapsOnce ((valueOf table fuel opened depth node).run []).1 := by
  induction fuel generalizing node with
  | zero =>
    rintro entries ⟨⟩
    exact keysDistinct_nil
  | succ fuel ih =>
    cases node with
    | «alias» name =>
      rw [valueOf]
      simp only [StateT.run_bind, StateT.run_get, pure_bind, List.find?_nil]
      split
      · exact mapsOnce_inner table name
      · exact ih _
    | scalar anchor tag t =>
      rw [valueOf, run_remember]
      exact mapsOnce_scalarValue _ tag t
    | sequence anchor tag items =>
      simp only [valueOf]
      split
      · rw [run_bind_remember]
        exact mapsOnce_map (by simp) _
      · rw [run_bind_remember]
        exact mapsOnce_map (by simp) _
      · rw [run_bind_remember]
        exact mapsOnce_map (by simp) _
      all_goals exact mapsOnce_error _
    | mapping anchor tag nodes =>
      simp only [valueOf]
      split
      · split
        · exact mapsOnce_error _
        · rw [run_bind_remember]
          exact mapsOnce_mappingOf _
      · split
        · exact mapsOnce_error _
        · rw [run_bind_remember]
          exact mapsOnce_map (by simp) _
      · exact mapsOnce_error _
      · exact mapsOnce_error _
      · exact mapsOnce_error _
      · split
        · rw [run_remember]
          exact mapsOnce_scalarValue depth tag _
        · exact mapsOnce_error _

/-- **A mapping that is read from a document has each key once.** -/
theorem keysDistinct_of_read {t : Text} {entries : List (Data × Data)}
    (h : Yaml.read t = .ok (.map entries)) : KeysDistinct entries := by
  unfold Yaml.read at h
  split at h
  · cases hn : Node.ofTokens (Token.scan t) with
    | error f =>
      rw [hn] at h
      cases h
    | ok node? =>
      rw [hn] at h
      cases node? with
      | none => cases h
      | some node =>
        change node.data = _ at h
        unfold Node.data at h
        split at h
        · rename_i d known hd
          cases h
          exact mapsOnce_valueOf node.anchored (2 * node.size + 2) [] 0 node entries
            (congrArg Prod.fst hd)
        · cases h
  · cases h

end EnvAudit.Yaml
