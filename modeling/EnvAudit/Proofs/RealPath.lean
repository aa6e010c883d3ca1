import EnvAudit.Proofs.ProperTree

/-!
# Real paths and look-ups

A look-up follows parts with one stack of links; a real path replaces the links within each other
and refuses those that lead back to themselves. `Leads` describes both: it says where parts lead
and which links are replaced on the way. A successful look-up leads somewhere (`follow_leads`), no
link is met again while it is replaced (`Leads.not_mem_inner`), and so the real path of a name is
the location that a look-up of it arrives at (`realPath_of_lookup`).
-/
namespace EnvAudit

/-- The location that a look-up arrives at. -/
def Target.location : Target → Location
  | .found loc _ => loc
  | .vacant dir name => dir ++ [name]

/-- Whether a part of a path is the name of an entry, and no instruction to stay or to go up. -/
def IsName (part : Text) : Prop := ¬ (part = [] ∨ part = ['.']) ∧ part ≠ ['.', '.']

theorem isName_of_isEntryName {name : Text} (h : isEntryName name = true) : IsName name := by
  obtain ⟨h1, h2, h3, -, -⟩ := isEntryName_iff.mp h
  exact ⟨fun h => h.elim h1 h2, h3⟩

namespace FileTree

open FileNode

/-- Where the parts of a link in a directory start. -/
def linkStart (dir : Location) (target : Text) : Location :=
  if target.head? = some '/' then [] else dir

/-- Whether parts lead from one location to another. `met` holds the links that are replaced on
the way, each before those in its target. What is not a link need not be there. -/
inductive Leads (t : FileTree) : Location → List Text → List Location → Location → Prop
  | nil (loc : Location) : Leads t loc [] [] loc
  | stay {loc stop : Location} {part : Text} {rest : List Text} {met : List Location}
      (h : part = [] ∨ part = ['.']) (hrest : Leads t loc rest met stop) :
      Leads t loc (part :: rest) met stop
  | up {loc stop : Location} {rest : List Text} {met : List Location}
      (hrest : Leads t loc.dropLast rest met stop) : Leads t loc (['.', '.'] :: rest) met stop
  | enter {loc stop : Location} {part : Text} {rest : List Text} {met : List Location}
      (h : IsName part) (hnot : ∀ target, t.at? (loc ++ [part]) ≠ some (.link target))
      (hrest : Leads t (loc ++ [part]) rest met stop) : Leads t loc (part :: rest) met stop
  | link {loc mid stop : Location} {part target : Text} {rest : List Text}
      {inner met : List Location} (h : IsName part)
      (hat : t.at? (loc ++ [part]) = some (.link target))
      (hinner : Leads t (linkStart loc target) (Text.splitOn '/' target) inner mid)
      (hrest : Leads t mid rest met stop) :
      Leads t loc (part :: rest) ((loc ++ [part]) :: (inner ++ met)) stop

namespace Leads

variable {t : FileTree} {loc stop : Location} {parts : List Text} {met : List Location}

/-- What leads somewhere does so part by part. -/
theorem split (h : t.Leads loc parts met stop) {xs ys : List Text} (hp : parts = xs ++ ys) :
    ∃ met₁ mid met₂, t.Leads loc xs met₁ mid ∧ t.Leads mid ys met₂ stop := by
  induction h generalizing xs with
  | nil loc =>
    obtain ⟨rfl, rfl⟩ := List.append_eq_nil_iff.mp hp.symm
    exact ⟨[], loc, [], .nil loc, .nil loc⟩
  | @stay loc stop part rest met h hrest ih =>
    rcases List.cons_eq_append_iff.mp hp with ⟨rfl, rfl⟩ | ⟨xs, rfl, rfl⟩
    · exact ⟨[], loc, met, .nil loc, .stay h hrest⟩
    · obtain ⟨m₁, mid, m₂, h₁, h₂⟩ := ih rfl
      exact ⟨m₁, mid, m₂, .stay h h₁, h₂⟩
  | @up loc stop rest met hrest ih =>
    rcases List.cons_eq_append_iff.mp hp with ⟨rfl, rfl⟩ | ⟨xs, rfl, rfl⟩
    · exact ⟨[], loc, met, .nil loc, .up hrest⟩
    · obtain ⟨m₁, mid, m₂, h₁, h₂⟩ := ih rfl
      exact ⟨m₁, mid, m₂, .up h₁, h₂⟩
  | @enter loc stop part rest met h hnot hrest ih =>
    rcases List.cons_eq_append_iff.mp hp with ⟨rfl, rfl⟩ | ⟨xs, rfl, rfl⟩
    · exact ⟨[], loc, met, .nil loc, .enter h hnot hrest⟩
    · obtain ⟨m₁, mid, m₂, h₁, h₂⟩ := ih rfl
      exact ⟨m₁, mid, m₂, .enter h hnot h₁, h₂⟩
  | @link loc mid stop part target rest inner met h hat hinner hrest _ ih =>
    rcases List.cons_eq_append_iff.mp hp with ⟨rfl, rfl⟩ | ⟨xs, rfl, rfl⟩
    · exact ⟨[], loc, _, .nil loc, .link h hat hinner hrest⟩
    · obtain ⟨m₁, mid', m₂, h₁, h₂⟩ := ih rfl
      exact ⟨_, mid', m₂, .link h hat hinner h₁, h₂⟩

/-- Parts lead to one location only, by the same links. -/
theorem unique {met' : List Location} {stop' : Location} (h : t.Leads loc parts met stop)
    (h' : t.Leads loc parts met' stop') : met = met' ∧ stop = stop' := by
  induction h generalizing met' stop' with
  | nil loc =>
    cases h'
    exact ⟨rfl, rfl⟩
  | stay h hrest ih =>
    cases h' with
    | stay _ hrest' => exact ih hrest'
    | up _ => simp at h
    | enter h' => exact absurd h h'.1
    | link h' => exact absurd h h'.1
  | up hrest ih =>
    cases h' with
    | stay h => simp at h
    | up hrest' => exact ih hrest'
    | enter h' => exact absurd rfl h'.2
    | link h' => exact absurd rfl h'.2
  | enter h hnot hrest ih =>
    cases h' with
    | stay h' => exact absurd h' h.1
    | up _ => exact absurd rfl h.2
    | enter _ _ hrest' => exact ih hrest'
    | link _ hat => exact absurd hat (hnot _)
  | link h hat hinner hrest ihinner ih =>
    cases h' with
    | stay h' => exact absurd h' h.1
    | up _ => exact absurd rfl h.2
    | enter _ hnot _ => exact absurd hat (hnot _)
    | link _ hat' hinner' hrest' =>
      obtain rfl := FileNode.link.inj (Option.some.inj (hat.symm.trans hat'))
      obtain ⟨rfl, rfl⟩ := ihinner hinner'
      obtain ⟨rfl, rfl⟩ := ih hrest'
      exact ⟨rfl, rfl⟩

/-- A link on the way has a target that leads somewhere, by fewer links than the whole way. -/
theorem of_mem (h : t.Leads loc parts met stop) {l : Location} (hl : l ∈ met) :
    ∃ target inner mid, t.at? l = some (.link target) ∧
      t.Leads (linkStart l.dropLast target) (Text.splitOn '/' target) inner mid ∧
      inner.length < met.length := by
  induction h with
  | nil => simp at hl
  | stay _ _ ih | up _ ih | enter _ _ _ ih => exact ih hl
  | @link loc mid _ part target _ inner met _ hat hinner _ ihinner ih =>
    simp only [List.length_cons, List.length_append]
    rcases List.mem_cons.mp hl with rfl | hl
    · refine ⟨target, inner, mid, hat, ?_, by omega⟩
      rwa [List.dropLast_concat]
    · rcases List.mem_append.mp hl with hl | hl
      · obtain ⟨target', inner', mid', hat', hin, hlt⟩ := ihinner hl
        exact ⟨target', inner', mid', hat', hin, by omega⟩
      · obtain ⟨target', inner', mid', hat', hin, hlt⟩ := ih hl
        exact ⟨target', inner', mid', hat', hin, by omega⟩

/-- No link is met while it is replaced: its target would lead by fewer links than it does. -/
theorem not_mem_inner {part target : Text} (hat : t.at? (loc ++ [part]) = some (.link target))
    {inner : List Location} {mid : Location}
    (h : t.Leads (linkStart loc target) (Text.splitOn '/' target) inner mid) :
    loc ++ [part] ∉ inner := by
  intro hm
  obtain ⟨target', inner', mid', hat', hin, hlt⟩ := h.of_mem hm
  obtain rfl := FileNode.link.inj (Option.some.inj (hat.symm.trans hat'))
  rw [List.dropLast_concat] at hin
  obtain ⟨rfl, -⟩ := h.unique hin
  omega

/-- From a location of names, parts lead to a location of names. -/
theorem isName (h : t.Leads loc parts met stop) (hloc : ∀ n ∈ loc, IsName n) :
    ∀ n ∈ stop, IsName n := by
  induction h with
  | nil => exact hloc
  | stay _ _ ih => exact ih hloc
  | up _ ih => exact ih fun n hn => hloc n (List.dropLast_subset _ hn)
  | enter h _ _ ih =>
    refine ih fun n hn => ?_
    rcases List.mem_append.mp hn with hn | hn
    · exact hloc n hn
    · obtain rfl := List.mem_singleton.mp hn
      exact h
  | link _ _ _ _ ihinner ih =>
    refine ih (ihinner fun n hn => ?_)
    rw [linkStart] at hn
    split at hn
    · simp at hn
    · exact hloc n hn

end Leads

/-! ## Where look-ups arrive -/

/-- Whether a directory is at a location, and no link to one. -/
def IsRealDir (t : FileTree) (loc : Location) : Prop := ∃ es, t.at? loc = some (.dir es)

theorem Proper.isRealDir_root {t : FileTree} (ht : t.Proper) : t.IsRealDir [] := by
  have h := ht.rootIsDir
  cases hr : t.root with
  | dir es => exact ⟨es, by rw [at?, FileNode.at?, hr]⟩
  | _ => simp [hr, isDir] at h

theorem Proper.isRealDir_here {t : FileTree} (ht : t.Proper) : t.IsRealDir t.here := by
  have h := ht.hereIsDir
  cases hr : t.at? t.here with
  | none => simp [hr] at h
  | some node =>
    cases node with
    | dir es => exact ⟨es, hr⟩
    | _ => simp [hr, isDir] at h

namespace IsRealDir

variable {t : FileTree} {dir : Location}

theorem of_at? {name : Text} {rest : Location} {node : FileNode}
    (h : t.at? (dir ++ name :: rest) = some node) : t.IsRealDir dir := by
  rw [at?_append] at h
  obtain ⟨m, hm, hr⟩ := Option.bind_eq_some_iff.mp h
  cases m with
  | dir es => exact ⟨es, hm⟩
  | _ => simp [FileNode.at?, entries, entryAt?] at hr

theorem of_append {rest : Location} (h : t.IsRealDir (dir ++ rest)) : t.IsRealDir dir := by
  cases rest with
  | nil => rwa [List.append_nil] at h
  | cons name rest =>
    obtain ⟨es, hes⟩ := h
    exact of_at? hes

theorem dropLast (h : t.IsRealDir dir) : t.IsRealDir dir.dropLast := by
  rcases List.eq_nil_or_concat dir with rfl | ⟨above, name, rfl⟩
  · exact h
  · rw [List.concat_eq_append] at h ⊢
    rw [List.dropLast_concat]
    exact h.of_append

theorem linkStart (hroot : t.IsRealDir []) (h : t.IsRealDir dir) (target : Text) :
    t.IsRealDir (linkStart dir target) := by
  rw [FileTree.linkStart]
  split
  · exact hroot
  · exact h

end IsRealDir

/-- Whether what a look-up arrives at is as it says: there, or not there in a directory that is. -/
def IsReal (t : FileTree) : Target → Prop
  | .found loc node => t.at? loc = some node
  | .vacant base name => t.IsRealDir base ∧ t.at? (base ++ [name]) = none

/-- Whether parts lead from a location where a descent says: to its target, or to the link at which
it stops. -/
def Arrives (t : FileTree) (loc : Location) (parts : List Text) : Stop → Prop
  | .done target => t.Leads loc parts [] target.location ∧ t.IsReal target
  | .problem _ => True
  | .atLink base target rest =>
    ∃ part, IsName part ∧ t.at? (base ++ [part]) = some (.link target) ∧
      ∀ met stop, t.Leads base (part :: rest) met stop → t.Leads loc parts met stop

theorem Arrives.imp {t : FileTree} {loc loc' : Location} {parts parts' : List Text} {s : Stop}
    (h : ∀ met stop, t.Leads loc parts met stop → t.Leads loc' parts' met stop)
    (hs : t.Arrives loc parts s) : t.Arrives loc' parts' s := by
  cases s with
  | done target => exact ⟨h _ _ hs.1, hs.2⟩
  | problem _ => trivial
  | atLink dir target rest =>
    obtain ⟨part, hn, hat, hall⟩ := hs
    exact ⟨part, hn, hat, fun met stop hl => h _ _ (hall met stop hl)⟩

theorem arrives_descend {t : FileTree} {loc : Location} (hloc : t.IsRealDir loc)
    (parts : List Text) : t.Arrives loc parts (t.descend true loc parts) := by
  induction parts generalizing loc with
  | nil =>
    obtain ⟨es, hes⟩ := hloc
    rw [descend, hes]
    exact ⟨.nil loc, hes⟩
  | cons part rest ih =>
    rw [descend]
    split
    · rename_i hstay
      exact (ih hloc).imp fun _ _ => .stay hstay
    rename_i hstay
    split
    · rename_i hup
      subst hup
      exact (ih hloc.dropLast).imp fun _ _ => .up
    rename_i hup
    have hname : IsName part := ⟨hstay, hup⟩
    split
    · trivial
    cases hat : t.at? (loc ++ [part]) with
    | none =>
      cases rest with
      | nil => exact ⟨.enter hname (by simp [hat]) (.nil _), hloc, hat⟩
      | cons _ _ => trivial
    | some node =>
      cases node with
      | dir es => exact (ih ⟨es, hat⟩).imp fun _ _ => .enter hname (by simp [hat])
      | link target =>
        rw [Bool.not_true, Bool.and_false]
        exact ⟨part, hname, hat, fun _ _ h => h⟩
      | _ =>
        cases rest with
        | nil => exact ⟨.enter hname (by simp [hat]) (.nil _), hat⟩
        | cons _ _ => trivial

/-- **A look-up leads where it arrives.** -/
theorem follow_leads {t : FileTree} (hroot : t.IsRealDir []) {links : Nat} {loc : Location}
    (hloc : t.IsRealDir loc) {parts : List Text} {target : Target}
    (h : t.follow true links loc parts = .ok target) :
    (∃ met, t.Leads loc parts met target.location) ∧ t.IsReal target := by
  induction links generalizing loc parts with
  | zero =>
    have ha := arrives_descend hloc parts
    rw [follow] at h
    split at h <;> cases h
    rename_i hs
    rw [hs] at ha
    exact ⟨⟨_, ha.1⟩, ha.2⟩
  | succ n ih =>
    have ha := arrives_descend hloc parts
    rw [follow] at h
    split at h
    · cases h
      rename_i hs
      rw [hs] at ha
      exact ⟨⟨_, ha.1⟩, ha.2⟩
    · cases h
    · rename_i dir link rest hs
      rw [hs] at ha
      obtain ⟨part, hname, hat, hall⟩ := ha
      have hstart := IsRealDir.linkStart hroot (.of_at? hat) link
      obtain ⟨⟨met, hl⟩, hreal⟩ := ih hstart h
      obtain ⟨inner, mid, met', hinner, hrest⟩ := hl.split rfl
      exact ⟨⟨_, hall _ _ (.link hname hat hinner hrest)⟩, hreal⟩

/-- Real directories lead to what is below them. -/
theorem leads_of_at? {t : FileTree} (ht : t.Proper) {loc : Location} {rel : List Text}
    {node : FileNode} (hat : t.at? (loc ++ rel) = some node)
    (hnot : ∀ target, node ≠ .link target) : t.Leads loc rel [] (loc ++ rel) := by
  induction rel generalizing loc with
  | nil =>
    rw [List.append_nil]
    exact .nil loc
  | cons name rest ih =>
    have hname : IsName name :=
      isName_of_isEntryName (ht.isEntryName_of_at? hat name (by simp))
    rw [List.append_cons] at hat ⊢
    refine .enter hname (fun target hlink => ?_) (ih hat)
    cases rest with
    | nil =>
      rw [List.append_nil, hlink] at hat
      cases hat
      exact hnot target rfl
    | cons name' rest =>
      obtain ⟨es, hes⟩ := IsRealDir.of_at? hat
      rw [hlink] at hes
      cases hes

/-! ## Links within each other -/

mutual

/-- The locations of the links in a tree. -/
def linksOf : FileNode → List Location
  | .link _ => [[]]
  | .dir es => linksIn es
  | .file _ | .pipe => []

/-- The locations of the links in the entries of a directory. -/
def linksIn : List (Text × FileNode) → List Location
  | [] => []
  | (name, node) :: rest => (linksOf node).map (name :: ·) ++ linksIn rest

end

mutual

theorem length_linksOf (node : FileNode) : (linksOf node).length = countLinks node := by
  cases node with
  | dir es => rw [linksOf, countLinks, length_linksIn es]
  | _ => simp [linksOf, countLinks]

theorem length_linksIn (es : List (Text × FileNode)) :
    (linksIn es).length = countLinksIn es := by
  cases es with
  | nil => rfl
  | cons e es =>
    rw [linksIn, countLinksIn, List.length_append, List.length_map, length_linksOf e.2,
      length_linksIn es]

end

theorem mem_linksIn {name : Text} {node : FileNode} {es : List (Text × FileNode)} {loc : Location}
    (he : (name, node) ∈ es) (h : loc ∈ linksOf node) : name :: loc ∈ linksIn es := by
  induction es with
  | nil => simp at he
  | cons e es ih =>
    rw [linksIn]
    rcases List.mem_cons.mp he with rfl | he
    · exact List.mem_append_left _ (List.mem_map_of_mem h)
    · exact List.mem_append_right _ (ih he)

theorem mem_linksOf {loc : Location} {node : FileNode} {target : Text}
    (h : node.at? loc = some (.link target)) : loc ∈ linksOf node := by
  induction loc generalizing node with
  | nil =>
    cases h
    exact List.mem_singleton.mpr rfl
  | cons name rest ih =>
    rw [at?_cons] at h
    obtain ⟨child, hc, hr⟩ := Option.bind_eq_some_iff.mp h
    cases node with
    | dir es => exact mem_linksIn (mem_of_entryAt? hc) (ih hr)
    | _ => simp [entries, entryAt?] at hc

/-- Whether no more than `depth` links are left beside those that are being replaced. -/
def HasRoom (t : FileTree) (depth : Nat) (opened : List Location) : Prop :=
  ∀ ls : List Location, ls.Nodup →
    (∀ l ∈ ls, l ∉ opened ∧ ∃ target, t.at? l = some (.link target)) → ls.length ≤ depth

theorem hasRoom_countLinks (t : FileTree) : t.HasRoom (countLinks t.root) [] := by
  intro ls hnd hall
  rw [← length_linksOf]
  refine hnd.length_le_of_subset fun l hl => ?_
  obtain ⟨target, hat⟩ := (hall l hl).2
  exact mem_linksOf hat

/-- Where a link is left, there is room for it, and one place less behind it. -/
theorem HasRoom.enter {t : FileTree} {depth : Nat} {opened : List Location}
    (h : t.HasRoom depth opened) {l : Location} {target : Text}
    (hat : t.at? l = some (.link target)) (hl : l ∉ opened) :
    ∃ n, depth = n + 1 ∧ t.HasRoom n (l :: opened) := by
  have hone : 1 ≤ depth := by
    refine h [l] (by simp) fun x hx => ?_
    obtain rfl := List.mem_singleton.mp hx
    exact ⟨hl, target, hat⟩
  refine ⟨depth - 1, by omega, fun ls hnd hall => ?_⟩
  have hcons := h (l :: ls) ?_ ?_
  · rw [List.length_cons] at hcons
    omega
  · exact List.nodup_cons.mpr ⟨fun hm => (hall l hm).1 List.mem_cons_self, hnd⟩
  · intro x hx
    rcases List.mem_cons.mp hx with rfl | hx
    · exact ⟨hl, target, hat⟩
    · obtain ⟨hno, hlink⟩ := hall x hx
      exact ⟨fun hm => hno (List.mem_cons_of_mem _ hm), hlink⟩

/-! ## Replacing links -/

section

variable {t : FileTree} {depth : Nat} {opened : List Location} {loc : Location} {part : Text}

theorem realFrom_nil : t.realFrom depth opened loc [] = ⟨loc, true⟩ := by
  cases depth <;> simp only [realFrom, replaceLinks]

theorem realFrom_stay (h : part = [] ∨ part = ['.']) (rest : List Text) :
    t.realFrom depth opened loc (part :: rest) = t.realFrom depth opened loc rest := by
  cases depth <;> simp only [realFrom, replaceLinks, if_pos h]

theorem realFrom_up (rest : List Text) :
    t.realFrom depth opened loc (['.', '.'] :: rest) = t.realFrom depth opened loc.dropLast rest := by
  cases depth <;> simp [realFrom, replaceLinks]

theorem realFrom_enter (h : IsName part)
    (hnot : ∀ target, t.at? (loc ++ [part]) ≠ some (.link target)) (rest : List Text) :
    t.realFrom depth opened loc (part :: rest) =
      t.realFrom depth opened (loc ++ [part]) rest := by
  cases depth <;> simp only [realFrom, replaceLinks, if_neg h.1, if_neg h.2]

theorem realFrom_link (h : IsName part) {target : Text}
    (hat : t.at? (loc ++ [part]) = some (.link target)) (hno : loc ++ [part] ∉ opened)
    {mid : Location}
    (hinner : t.realFrom depth ((loc ++ [part]) :: opened) (linkStart loc target)
      (Text.splitOn '/' target) = ⟨mid, true⟩) (rest : List Text) :
    t.realFrom (depth + 1) opened loc (part :: rest) =
      t.realFrom (depth + 1) opened mid rest := by
  rw [linkStart] at hinner
  simp [realFrom, replaceLinks, if_neg h.1, if_neg h.2, hat, hno, hinner]

/-- **Where parts lead, their links can be replaced.** -/
theorem realFrom_of_leads {parts : List Text} {met : List Location} {stop : Location}
    (h : t.Leads loc parts met stop) (hroom : t.HasRoom depth opened)
    (hno : ∀ l ∈ met, l ∉ opened) : t.realFrom depth opened loc parts = ⟨stop, true⟩ := by
  induction h generalizing depth opened with
  | nil => exact realFrom_nil
  | stay h _ ih => rw [realFrom_stay h, ih hroom hno]
  | up _ ih => rw [realFrom_up, ih hroom hno]
  | enter h hnot _ ih => rw [realFrom_enter h hnot, ih hroom hno]
  | link h hat hinner _ ihinner ih =>
    obtain ⟨hself, hno⟩ := List.forall_mem_cons.mp hno
    obtain ⟨hnoinner, hnomet⟩ := List.forall_mem_append.mp hno
    obtain ⟨n, rfl, hroom'⟩ := hroom.enter hat hself
    have hin := ihinner hroom' fun l hl hm => by
      rcases List.mem_cons.mp hm with rfl | hm
      · exact Leads.not_mem_inner hat hinner hl
      · exact hnoinner l hl hm
    rw [realFrom_link h hat hself hin, ih hroom hnomet]

end

theorem normalise_of_isName {loc : Location} (h : ∀ n ∈ loc, IsName n) : normalise loc = loc := by
  have hfold : ∀ (parts start : Location), (∀ n ∈ parts, IsName n) →
      parts.foldl (fun loc p =>
        if p = [] ∨ p = ['.'] then loc
        else if p = ['.', '.'] then loc.dropLast
        else loc ++ [p]) start = start ++ parts := by
    intro parts
    induction parts with
    | nil => simp
    | cons p parts ih =>
      intro start hall
      obtain ⟨hp, hall⟩ := List.forall_mem_cons.mp hall
      rw [List.foldl_cons, if_neg hp.1, if_neg hp.2, ih _ hall, List.append_assoc]
      rfl
  rw [normalise, hfold loc [] h, List.nil_append]

/-- A look-up starts at a directory that is there. -/
theorem Proper.isRealDir_startOf {t : FileTree} (ht : t.Proper) (p : PathName) :
    t.IsRealDir (t.startOf p) := by
  rw [startOf]
  split
  · exact ht.isRealDir_here
  all_goals exact ht.isRealDir_root

/-- What is not a link is found under its own name below where the root is found. -/
theorem eq_of_find?_descend {t : FileTree} (ht : t.Proper) {root : PathName} {base : Location}
    {top : FileNode} (h : t.find? root = .ok (some (base, top))) {rel : List Text} {node : FileNode}
    (hat : t.at? (base ++ rel) = some node) (hnot : ∀ target, node ≠ .link target)
    {loc : Location} {found : FileNode}
    (hf : t.find? (root.descend rel) = .ok (some (loc, found))) : loc = base ++ rel := by
  have hleads : ∀ {p : PathName} {l : Location} {n : FileNode}, t.find? p = .ok (some (l, n)) →
      ∃ met, t.Leads (t.startOf p) p.parts met l := by
    intro p l n hp
    rw [find?_eq_found_iff, lookup] at hp
    split at hp
    · cases hp
    · exact (follow_leads ht.isRealDir_root (ht.isRealDir_startOf p) hp).1
  obtain ⟨met, hroot⟩ := hleads h
  obtain ⟨met', hwhole⟩ := hleads hf
  obtain ⟨met₁, mid, met₂, hfirst, hrest⟩ := hwhole.split rfl
  obtain ⟨-, rfl⟩ := hroot.unique hfirst
  exact (hrest.unique (leads_of_at? ht hat hnot)).2

/-- **The real path of a name is where a look-up of it arrives.** -/
theorem realPath_of_lookup {t : FileTree} (ht : t.Proper) {p : PathName} {target : Target}
    (h : t.lookup p true = .ok target) :
    t.realPath p = ⟨.root, target.location⟩ ∧ t.IsReal target := by
  rw [lookup] at h
  split at h
  · cases h
  have hstart := ht.isRealDir_startOf p
  obtain ⟨⟨met, hl⟩, hreal⟩ := follow_leads ht.isRealDir_root hstart h
  refine ⟨?_, hreal⟩
  have hnames : ∀ n ∈ t.startOf p, IsName n := by
    obtain ⟨es, hes⟩ := hstart
    exact fun n hn => isName_of_isEntryName (ht.isEntryName_of_at? hes n hn)
  rw [realPath, realFrom_of_leads hl (hasRoom_countLinks t) (by simp),
    normalise_of_isName (hl.isName hnames)]

end FileTree
end EnvAudit
