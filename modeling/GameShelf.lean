import GameShelf.Journal
import GameShelf.Main
import GameShelf.Proofs.BothEnds
import GameShelf.Proofs.CaseBlind
import GameShelf.Proofs.ContainedText
import GameShelf.Proofs.FilterOption
import GameShelf.Proofs.IntegerConditions
import GameShelf.Proofs.NamedPicks
import GameShelf.Proofs.OwnNames
import GameShelf.Proofs.PlainDecimals
import GameShelf.Proofs.SavedLines
import GameShelf.Proofs.SelectorGrammar
import GameShelf.Proofs.ShownValues
import GameShelf.Proofs.SortClause
import GameShelf.Proofs.TakenBack
import GameShelf.Proofs.TokenOffsets
import GameShelf.Proofs.WrittenSheet
