import ComponentDocs.Proofs.Run.SecondRun
import ComponentDocs.Proofs.Run.SumOfFiles

/-! Publishing a second time writes the same again and changes nothing, unless the first run wrote to a place that is
read, made a folder in the place of the list of ignored files, or made a folder that a path to documentation climbs out
of. -/

namespace ComponentDocs

open Reporting (Runs)

namespace Publication

variable {disk : Disk} {publication : Publication} {made : Store} {place : Place}

theorem Reaches.again (reaches : publication.Reaches disk made place) (bytes : Utf8.Bytes) :
    publication.Reaches { disk with store := made.put place.location (.file bytes) }
      (made.put place.location (.file bytes)) place := by
  obtain ⟨path, absolute, folders⟩ := reaches.above
  refine ⟨⟨path, absolute, ?_⟩, reaches.fits, reaches.ends, reaches.follow_put bytes, ?_⟩
  · exact Store.makeFoldersIn_again folders fun _ => reaches.folder_put bytes
  · rw [Place.lookup, if_pos reaches.not_lost, reaches.get?_put, if_pos rfl]
    simp

end Publication

end ComponentDocs
