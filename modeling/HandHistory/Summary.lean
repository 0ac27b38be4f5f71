import HandHistory.Document
import HandHistory.Numeral
import HandHistory.Site

/-!
# Summaries

A summary tells how much of everything a site holds, and who its hero is. It has
two forms: lines of text, in which a site without a hero has no line for one,
and a document, in which such a site has none as its hero.
-/

namespace HandHistory.Site

/-- Lines of text, each with its line feed. -/
def summaryLines (site : Site) : List Text :=
  let number := Numeral.write
  ["Site: ".toList ++ site.name,
   "Games: ".toList ++ number site.gameCount ++ " (" ++ number site.cashGames.length ++
     " cash, " ++ number site.tournaments.length ++ " tournaments)",
   "Hands: ".toList ++ number site.handCount,
   "Actions: ".toList ++ number site.actionCount,
   "Players: ".toList ++ number site.playerCount] ++
  (site.hero?.map fun hero => "Hero: ".toList ++ hero.name).toList

def summaryText (site : Site) : Text := site.summaryLines.flatMap (· ++ ['\n'])

/-- The figures in the alphabetical order of their names. -/
def summary (site : Site) : Document :=
  .record
    [("actions", .ofNat site.actionCount),
     ("cash_games", .ofNat site.cashGames.length),
     ("games", .ofNat site.gameCount),
     ("hands", .ofNat site.handCount),
     ("hero", .orNull (fun hero => .text hero.name) site.hero?),
     ("players", .ofNat site.playerCount),
     ("site", .text site.name),
     ("tournaments", .ofNat site.tournaments.length)]

end HandHistory.Site
