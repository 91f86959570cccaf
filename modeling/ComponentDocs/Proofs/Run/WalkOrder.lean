import ComponentDocs.Proofs.Run.Enumeration
import ComponentDocs.Proofs.Sorting
import ComponentDocs.Publication

namespace ComponentDocs

namespace Disk.Alike

variable {disk other : Disk} (alike : disk.Alike other)

include alike

theorem readText : Config.readText disk = Config.readText other := by
  funext path
  rw [Config.readText, Config.readText, alike.read]

theorem readEntries : Config.readEntries disk = Config.readEntries other := by
  funext path
  rw [Config.readEntries, Config.readEntries, alike.readText]

theorem loadManifest : Config.loadManifest disk = Config.loadManifest other := by
  funext folder
  rw [Config.loadManifest, Config.loadManifest, alike.isFile, alike.readEntries]

theorem entriesFor : Config.entriesFor disk = Config.entriesFor other := by
  funext folder manifest
  rw [Config.entriesFor, Config.entriesFor, alike.isFile, alike.readEntries]

theorem build : Config.build disk = Config.build other := by
  funext folder entries manifest
  rw [Config.build, Config.build, alike.absolute, alike.isFolder]

theorem load : Config.load disk = Config.load other := by
  funext folder
  rw [Config.load, Config.load, alike.workingPath, alike.absolute, alike.isFolder, alike.loadManifest,
    alike.entriesFor, alike.build]

theorem ignoredBy (frontend : Frontend) : ignoredBy frontend disk = ignoredBy frontend other := by
  funext folder
  rw [ComponentDocs.ignoredBy, ComponentDocs.ignoredBy, alike.contains, alike.readText]

theorem parseFile (frontend : Frontend) : frontend.parseFile disk = frontend.parseFile other := by
  funext path
  simp only [Frontend.parseFile, Frontend.readSource, alike.read]

theorem parseFiles (frontend : Frontend) : frontend.parseFiles disk = frontend.parseFiles other := by
  have step : frontend.addParsed disk = frontend.addParsed other := by
    funext table path
    rw [Frontend.addParsed, Frontend.addParsed, alike.parseFile]
  funext paths
  rw [Frontend.parseFiles, Frontend.parseFiles, step]

theorem attachDocs : attachDocs disk = attachDocs other := by
  have each : Component.withDocs disk = Component.withDocs other := by
    funext docsFolder component
    rw [Component.withDocs, Component.withDocs, alike.isFile, alike.readText]
  funext docsFolder components
  rw [ComponentDocs.attachDocs, ComponentDocs.attachDocs, each]

theorem payload : Config.payload disk = Config.payload other := by
  have docs : libraryDocs disk = libraryDocs other := by
    funext docsFolder
    rw [libraryDocs, libraryDocs, alike.isFile, alike.readText]
  funext config components
  rw [Config.payload, Config.payload, docs]

theorem writeDocument (path : RawText) (document : Json) :
    (disk.writeDocument path document).2 = (other.writeDocument path document).2 := by
  rw [Disk.writeDocument, Disk.writeDocument]
  have written := alike.write path (Utf8.encode document.written)
  revert written
  generalize disk.write path _ = here, other.write path _ = there
  rintro (_ | problem) <;> rfl

theorem save (publication : Publication) : (publication.save disk).2 = (publication.save other).2 := by
  rw [Publication.save, Publication.save, alike.absolute]
  cases other.absolute publication.path with
  | error problem => rfl
  | ok path =>
    have made := alike.found.makeFoldersIn [] (Disk.spelt (Path.folder path))
    simp only [Store.makeFolders]
    revert made
    generalize disk.store.makeFoldersIn _ _ = here, other.store.makeFoldersIn _ _ = there
    obtain ⟨store, outcome⟩ := here
    obtain ⟨store', outcome'⟩ := there
    rintro ⟨found, same⟩
    cases same
    cases outcome with
    | error problem => rfl
    | ok _ =>
      have sameAfter : ({ disk with store := store } : Disk).Alike { other with store := store' } :=
        ⟨alike.working, found⟩
      exact sameAfter.writeDocument publication.path publication.document

end Disk.Alike

theorem Disk.missing_of_absolute {disk : Disk} {path : RawText} {failure : Failure}
    (failed : onDisk (disk.absolute path) = .error failure) : failure = .disk .missing := by
  rw [Disk.absolute, Disk.workingPath] at failed
  split at failed
  · cases failed
  split at failed <;> cases failed
  rfl

namespace Disk.Reenumerates

variable {disk other : Disk} (same : disk.Reenumerates other)

include same

theorem relativePaths (folder : RawText) : (relativePaths disk folder).Perm (relativePaths other folder) := by
  rw [ComponentDocs.relativePaths, ComponentDocs.relativePaths, same.isFolder, same.locate]
  split
  · split
    · exact (same.listed.filterMap _).map _
    · exact .refl _
  · exact .refl _

theorem scan (frontend : Frontend) (config : Config) : config.scan frontend disk = config.scan frontend other := by
  rw [Config.scan, Config.scan, same.ignoredBy, same.absolute]
  refine Agree.eq ?_
  refine (Agree.refl (frontend.matcher config.includes)).bind ?_
  rintro included _ rfl
  refine (Agree.refl (frontend.matcher config.excludes)).bind ?_
  rintro excluded _ rfl
  refine (Agree.refl (ComponentDocs.ignoredBy frontend other config.baseFolder)).bind ?_
  rintro ignored _ rfl
  refine (Agree.mapM_perm ?_ ((same.relativePaths config.baseFolder).filter _)).bind ?_
  · intro path path' failure failure' here there
    rw [Disk.missing_of_absolute here, Disk.missing_of_absolute there]
  · intro paths paths' perm
    exact .pure (mergeSort_eq_of_perm (fun path => path) (fun _ _ same => same) perm)

theorem prepare (frontend : Frontend) (folder output : Option RawText) :
    Publication.prepare frontend disk folder output = Publication.prepare frontend other folder output := by
  simp only [Publication.prepare, same.load, same.scan, same.parseFiles, same.attachDocs, same.payload]

theorem publish (frontend : Frontend) (folder output : Option RawText) :
    (publish frontend disk folder output).1 = (publish frontend other folder output).1 := by
  rw [ComponentDocs.publish, ComponentDocs.publish, same.prepare]
  rcases (Publication.prepare frontend other folder output).printed frontend.prints with
    ⟨failure | publication, notices⟩
  · rfl
  · have saved := same.save publication
    dsimp only
    revert saved
    generalize publication.save disk = here, publication.save other = there
    obtain ⟨store, outcome⟩ := here
    obtain ⟨store', outcome'⟩ := there
    intro saved
    cases saved
    cases outcome with
    | error failure => rfl
    | ok _ => dsimp only; split <;> rfl

end Disk.Reenumerates

end ComponentDocs
