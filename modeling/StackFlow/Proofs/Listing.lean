import StackFlow.Proofs.Combs
import StackFlow.Repository.Directory

/-!
What a listed ID leads to. A document is listed under the ID it declares, but looked for under the
name of its file. Main statement, for repositories that list every document and find it by the name
of its file: a listing that succeeds is sorted and names every document once; a listed ID gives the
contract of a document whose file it names, so that of its own document where it names no other
file, and an error where it names none.
-/

namespace StackFlow

/-- The contract that a document makes, asked for by an ID. -/
def StoredDocument.contract (d : StoredDocument) (id : String) : Except RepositoryError Json.Value :=
  match d.data.script with
  | none => .error (.noScript id)
  | some script =>
    .ok (.obj [("name", .str (if d.data.name.isEmpty then id else d.data.name)),
      ("script", normalScript script)])

/-- The name of the file, with its extension or without it. -/
def Files.Names (id file : String) : Prop := id = file ∨ id = Files.withoutExtension file

instance (id file : String) : Decidable (Files.Names id file) := inferInstanceAs (Decidable (_ ∨ _))

namespace Repository

variable {r : Repository} {files : List (String × StoredDocument)} {id : String}
  {d : StoredDocument} {ids : List String} {pairs seen : List (String × String)}

/-! ## Repositories of files -/

/-- All of these documents are listed, each once. -/
def ListsAll (r : Repository) (files : List (String × StoredDocument)) : Prop :=
  ∃ docs, r.documents = .ok docs ∧ docs.Perm (files.map (·.2))

/-- A document is found by the name of its file, with the extension or without it. Files that have a
name in common hide each other, all but one. -/
structure FindsByName (r : Repository) (files : List (String × StoredDocument)) : Prop where
  found : ∀ id, (∃ f ∈ files, Files.Names id f.1) → ∃ f ∈ files, Files.Names id f.1 ∧
    r.get id = .ok f.2
  missing : ∀ id, (∀ f ∈ files, ¬ Files.Names id f.1) → ∃ reason, r.get id = .error reason

/-! ## Listing -/

theorem collision?_none (clear : collision? seen pairs = none) :
    (pairs.map (·.1)).Nodup ∧ ∀ p ∈ pairs, seen.lookup p.1 = none := by
  induction pairs generalizing seen with
  | nil => simp
  | cons p rest ih =>
    obtain ⟨id, name⟩ := p
    unfold collision? at clear
    cases first : seen.lookup id with
    | some name' => simp [first] at clear
    | none =>
      simp only [first] at clear
      obtain ⟨distinct, apart⟩ := ih clear
      have fresh : ∀ q ∈ rest, q.1 ≠ id ∧ seen.lookup q.1 = none := fun q member => by
        have unseen := apart q member
        rw [List.lookup_cons] at unseen
        cases same : q.1 == id with
        | true => simp [same] at unseen
        | false => exact ⟨by simpa using same, by simpa [same] using unseen⟩
      refine ⟨List.nodup_cons.mpr ⟨?_, distinct⟩, List.forall_mem_cons.mpr ⟨first, ?_⟩⟩
      · intro member
        obtain ⟨q, among, same⟩ := List.mem_map.mp member
        exact (fresh q among).1 same
      · exact fun q member => (fresh q member).2

theorem list_ok (listed : r.list = .ok ids) : ∃ docs, r.documents = .ok docs ∧
    (docs.map StoredDocument.listedId).Nodup ∧
    ids = (docs.map StoredDocument.listedId).mergeSort (· ≤ ·) := by
  unfold list at listed
  split at listed
  · cases listed
  · rename_i docs read
    dsimp only at listed
    split at listed
    · cases listed
    · rename_i clear
      have shown : (docs.map fun d => (d.listedId, d.id)).map (·.1) =
          docs.map StoredDocument.listedId := by simp
      have distinct := (collision?_none clear).1
      rw [shown] at distinct listed
      exact ⟨docs, read, distinct, (Except.ok.inj listed).symm⟩

theorem list_sorted (listed : r.list = .ok ids) : ids.Pairwise (· ≤ ·) ∧ ids.Nodup := by
  obtain ⟨docs, _, distinct, rfl⟩ := list_ok listed
  refine ⟨?_, (List.mergeSort_perm _ _).nodup_iff.mpr distinct⟩
  simpa using @List.pairwise_mergeSort String (fun a b => a ≤ b)
    (fun a b c => by simpa using le_trans) (fun a b => by simpa using le_total a b)
    (docs.map StoredDocument.listedId)

/-- A listing holds the ID of each document, and no two documents share one. -/
theorem list_perm (all : r.ListsAll files) (listed : r.list = .ok ids) :
    ids.Perm (files.map fun f => f.2.listedId) := by
  obtain ⟨docs, read, same⟩ := all
  obtain ⟨docs', read', _, rfl⟩ := list_ok listed
  cases read.symm.trans read'
  have shown : (files.map (·.2)).map StoredDocument.listedId = files.map fun f => f.2.listedId := by
    simp
  exact (List.mergeSort_perm _ _).trans (shown ▸ same.map StoredDocument.listedId)

/-! ## Loading -/

theorem envelope_of_get (found : r.get id = .ok d) : r.envelope id = d.contract id := by
  have loaded : ∃ m, r.metadata id = .ok m ∧ m.name = d.data.name ∧ m.script = d.data.script := by
    simp only [metadata, found]
    exact ⟨_, rfl, rfl, rfl⟩
  obtain ⟨m, loaded, name, script⟩ := loaded
  unfold envelope StoredDocument.contract
  simp only [loaded, bind, Except.bind, name, script]
  cases d.data.script <;> rfl

theorem envelope_of_error {reason : String} (listed : r.list = .ok ids) (member : id ∈ ids)
    (missing : r.get id = .error reason) : r.envelope id = .error (.getFailed id reason) := by
  have failed : r.metadata id = .error (.getFailed id reason) := by
    simp [metadata, missing, listed, member]
  simp [envelope, failed, bind, Except.bind]

/-- A listed ID gives the contract of a document whose file has this name, and an error if there is
no such file. It need not be the document that the ID was listed for. -/
theorem listed_ids_lead (all : r.ListsAll files) (finds : r.FindsByName files)
    (listed : r.list = .ok ids) :
    ids.Pairwise (· ≤ ·) ∧ ids.Nodup ∧ ids.Perm (files.map fun f => f.2.listedId) ∧
    (∀ id ∈ ids, (∃ f ∈ files, Files.Names id f.1) → ∃ f ∈ files, Files.Names id f.1 ∧
      r.envelope id = f.2.contract id) ∧
    (∀ id ∈ ids, (∀ f ∈ files, ¬ Files.Names id f.1) →
      ∃ reason, r.envelope id = .error (.getFailed id reason)) ∧
    (∀ f ∈ files, Files.Names f.2.listedId f.1 →
      (∀ f' ∈ files, Files.Names f.2.listedId f'.1 → f' = f) →
      r.envelope f.2.listedId = f.2.contract f.2.listedId) := by
  obtain ⟨sorted, distinct⟩ := list_sorted listed
  have named : ∀ id, (∃ f ∈ files, Files.Names id f.1) → ∃ f ∈ files, Files.Names id f.1 ∧
      r.envelope id = f.2.contract id := by
    intro id some
    obtain ⟨f, member, names, found⟩ := finds.found id some
    exact ⟨f, member, names, envelope_of_get found⟩
  refine ⟨sorted, distinct, list_perm all listed, fun id _ => named id, ?_, ?_⟩
  · intro id member nowhere
    obtain ⟨reason, missing⟩ := finds.missing id nowhere
    exact ⟨reason, envelope_of_error listed member missing⟩
  · intro f member names alone
    obtain ⟨f', member', names', leads⟩ := named f.2.listedId ⟨f, member, names⟩
    rw [alone f' member' names'] at leads
    exact leads

/-! ## A document that declares another ID -/

/-- A repository of these files: the first one with the name is found. -/
def ofFiles (files : List (String × StoredDocument)) : Repository where
  documents := .ok (files.map (·.2))
  get id := ((files.find? fun f => Files.Names id f.1).map (·.2)).elim
    (.error "no readable document") .ok

theorem ofFiles_listsAll (files : List (String × StoredDocument)) : (ofFiles files).ListsAll files :=
  ⟨_, rfl, .refl _⟩

theorem ofFiles_findsByName (files : List (String × StoredDocument)) :
    (ofFiles files).FindsByName files where
  found := by
    rintro id ⟨f, member, names⟩
    cases found : files.find? fun f => Files.Names id f.1 with
    | none =>
      have apart := List.find?_eq_none.mp found f member
      exact absurd names (by simpa using apart)
    | some f' =>
      exact ⟨f', List.mem_of_find?_eq_some found, by simpa using List.find?_some found,
        by simp [ofFiles, found]⟩
  missing := by
    intro id nowhere
    have none : (files.find? fun f => Files.Names id f.1) = none :=
      List.find?_eq_none.mpr fun f member => by simpa using nowhere f member
    exact ⟨_, by simp only [ofFiles, none]; rfl⟩

def otherScript : Json.Value := .arr [.obj [("prim", .str "UNIT")]]

/-- One document declares another ID than the name of its file, and one declares none. -/
def strayed : List (String × StoredDocument) :=
  [("file.json", { id := "file", data := { id := "other", script := some otherScript } }),
    ("plain.json", { id := "plain", data := { script := some otherScript } })]

theorem strayed_list : (ofFiles strayed).list = .ok ["other", "plain"] := by
  have ids : (strayed.map (·.2)).map (fun d => (d.listedId, d.id)) =
      [("other", "file"), ("plain", "plain")] := by decide +kernel
  have sorted : ["other", "plain"].mergeSort (· ≤ ·) = ["other", "plain"] :=
    List.mergeSort_of_pairwise (by decide +kernel)
  simp [list, ofFiles, ids, collision?, sorted]

theorem strayed_nowhere : ∀ f ∈ strayed, ¬ Files.Names "other" f.1 := by decide +kernel

/-- The document that declares no ID is loaded; the ID of the other one names no file. -/
theorem strayed_ids_lead : (ofFiles strayed).ListsAll strayed ∧
    (ofFiles strayed).FindsByName strayed ∧ (ofFiles strayed).list = .ok ["other", "plain"] ∧
    (ofFiles strayed).envelope "plain" =
      .ok (.obj [("name", .str "plain"), ("script", otherScript)]) ∧
    ∃ reason, (ofFiles strayed).envelope "other" = .error (.getFailed "other" reason) := by
  obtain ⟨_, _, _, _, missing, leads⟩ :=
    listed_ids_lead (ofFiles_listsAll strayed) (ofFiles_findsByName strayed) strayed_list
  have plain := leads ("plain.json", { id := "plain", data := { script := some otherScript } })
    (.tail _ (.head _)) (by decide +kernel) (by
      rintro f member names
      rcases List.mem_cons.mp member with rfl | member
      · exact absurd names (by decide +kernel)
      · exact List.mem_singleton.mp member)
  have listedId : (StoredDocument.mk "plain" { script := some otherScript } "").listedId =
      "plain" := by decide +kernel
  dsimp only at plain
  rw [listedId] at plain
  exact ⟨ofFiles_listsAll strayed, ofFiles_findsByName strayed, strayed_list, plain,
    missing "other" (by decide) strayed_nowhere⟩

/-- Not every listed ID gives the contract of its document, however well the repository lists and
finds. -/
theorem stray_not_loaded : ¬ ∀ (r : Repository) (files : List (String × StoredDocument))
    (ids : List String), r.ListsAll files → r.FindsByName files → r.list = .ok ids →
      ∀ f ∈ files, f.2.data.script.isSome →
        r.envelope f.2.listedId = f.2.contract f.2.listedId := by
  intro claim
  have loaded := claim (ofFiles strayed) strayed _ (ofFiles_listsAll strayed)
    (ofFiles_findsByName strayed) strayed_list _ (.head _) rfl
  have listedId : (StoredDocument.mk "file" { id := "other", script := some otherScript }
      "").listedId = "other" := by decide +kernel
  obtain ⟨reason, missing⟩ := (ofFiles_findsByName strayed).missing "other" strayed_nowhere
  dsimp only at loaded
  rw [listedId, envelope_of_error strayed_list (by decide) missing] at loaded
  cases loaded

/-! ## The directory of these documents -/

def otherSource : String := "\x7b\"id\":\"other\",\"script\":[\x7b\"prim\":\"UNIT\"\x7d]\x7d"

def plainSource : String := "\x7b\"script\":[\x7b\"prim\":\"UNIT\"\x7d]\x7d"

def strayedDirectory : Directory := ⟨⟨[("file.json", otherSource), ("plain.json", plainSource)]⟩, "."⟩

theorem strayed_below : strayedDirectory.files.below strayedDirectory.dir =
    [(["file.json"], otherSource), (["plain.json"], plainSource)] := by
  have mine : (strayedDirectory.files.entries.filterMap fun e =>
      if (Files.parts strayedDirectory.dir).isPrefixOf (Files.parts e.1) then
        some ((Files.parts e.1).drop (Files.parts strayedDirectory.dir).length, e.2) else none) =
      [(["file.json"], otherSource), (["plain.json"], plainSource)] := by decide +kernel
  unfold Files.below
  simp only [mine]
  exact List.mergeSort_of_pairwise (by decide +kernel)

theorem file?_of_parts {r : Directory} {path source : String}
    (found : ((r.file? id).map fun f => (f.file, f.source)) = some (path, source)) :
    r.file? id = some ⟨path, source⟩ := by
  obtain ⟨f, same, parts⟩ := Option.map_eq_some_iff.mp found
  cases parts
  exact same

theorem strayed_file : strayedDirectory.document? "file" =
    some { data := some [("id", .str "other"), ("script", otherScript)] } := by
  have file : strayedDirectory.file? "file" = some ⟨"file.json", otherSource⟩ :=
    file?_of_parts (by decide +kernel)
  rw [Directory.document?, file, Option.bind_some]
  cbv

theorem strayed_plain : strayedDirectory.document? "plain" =
    some { data := some [("script", otherScript)] } := by
  have file : strayedDirectory.file? "plain" = some ⟨"plain.json", plainSource⟩ :=
    file?_of_parts (by decide +kernel)
  rw [Directory.document?, file, Option.bind_some]
  cbv

/-- A directory gives out these documents in the same way. -/
theorem strayed_directory : strayedDirectory.documents = (ofFiles strayed).documents ∧
    ∀ id ∈ ["plain", "other"], strayedDirectory.get id = (ofFiles strayed).get id := by
  have other : Directory.stored? "file"
      { data := some [("id", .str "other"), ("script", otherScript)] } =
      some { id := "file", data := { id := "other", script := some otherScript } } := by cbv
  have plain : Directory.stored? "plain" { data := some [("script", otherScript)] } =
      some { id := "plain", data := { script := some otherScript } } := by cbv
  have names : strayedDirectory.names = ["file", "plain"] := by
    rw [Directory.names, strayed_below]
    decide +kernel
  have nowhere : strayedDirectory.file? "other" = none := by decide +kernel
  refine ⟨?_, List.forall_mem_cons.mpr ⟨?_, List.forall_mem_singleton.mpr ?_⟩⟩
  · simp [Directory.documents, names, strayed_file, strayed_plain, other, plain, ofFiles, strayed,
      bind, Except.bind, pure, Except.pure]
  · have found : (strayed.find? fun f => Files.Names "plain" f.1) =
        some ("plain.json", { id := "plain", data := { script := some otherScript } }) := by
      rw [strayed, List.find?_cons_of_neg (by decide +kernel)]
      exact List.find?_cons_of_pos (by decide +kernel)
    simp [Directory.get, strayed_plain, plain, ofFiles, found]
  · have missing : (strayed.find? fun f => Files.Names "other" f.1) = none :=
      List.find?_eq_none.mpr fun f member => by simpa using strayed_nowhere f member
    simp [Directory.get, Directory.document?, nowhere, ofFiles, missing]

end Repository

end StackFlow
