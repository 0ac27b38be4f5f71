import HandHistory.Decimal.Sign
import HandHistory.Main
import HandHistory.Proofs.Players
import HandHistory.Proofs.Reading
import HandHistory.Proofs.Blocks
import HandHistory.Proofs.Games
import HandHistory.Proofs.Hands
import HandHistory.Proofs.Faults
import HandHistory.Proofs.Rosters
import HandHistory.Proofs.Loading
import HandHistory.Proofs.Progress
import HandHistory.Proofs.Integrity
import HandHistory.Proofs.SharedRoster
import HandHistory.Proofs.ReadingBack
import HandHistory.Proofs.Amounts
import HandHistory.Proofs.Winners
import HandHistory.Proofs.Resuming
import HandHistory.Proofs.Attribution
import HandHistory.Proofs.Wildcards
import HandHistory.Proofs.Stems
import HandHistory.Proofs.Edits
import HandHistory.Proofs.Headers
import HandHistory.Proofs.Tables
import HandHistory.Proofs.Merging
import HandHistory.Proofs.Interleavings
import HandHistory.Proofs.Draining
import HandHistory.Proofs.HeaderAmounts
import HandHistory.Proofs.Layers
import HandHistory.Proofs.Overriding
import HandHistory.Proofs.Walks
import HandHistory.Proofs.Answers
import HandHistory.Proofs.RomanNumerals
import HandHistory.Proofs.CardGroups
