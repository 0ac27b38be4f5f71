import HandHistory.Roster

/-!
# Batches

A batch gathers the sites of single files into the site of all of them. The
games are merged file by file; the players wait in a roster until all files are
in, so that the hero mark of any file reaches the players of every other.
-/

namespace HandHistory

structure Batch where
  site : Site
  roster : Roster
  /-- How many sites have been merged. -/
  merged : Nat := 0

namespace Batch

/-- A batch of the site of a name, without files. -/
def empty (name : Text) : Batch := { site := { name }, roster := { site := name } }

/-- Folds in the site of one file; one of another name is left out. -/
def addSite (batch : Batch) (fileSite : Site) : Batch :=
  let (players, fileSite) := fileSite.takePlayers
  match batch.site.merge fileSite with
  | .ok site => { site, roster := batch.roster.absorb players, merged := batch.merged + 1 }
  | .error _ => batch

/-- Folds in the results of reading files; those without a site add nothing. -/
def addResults (batch : Batch) (results : List (Option (Option Site))) : Batch :=
  (results.filterMap Option.join).foldl addSite batch

/-- The site with the gathered players, and how many of these it did not have. -/
def finish (batch : Batch) : Nat × Site :=
  let (count, site, _) := batch.roster.drainInto batch.site
  (count, site)

end Batch

end HandHistory
