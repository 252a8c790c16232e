import DatePhrase.FileTree
import DatePhrase.Main
import DatePhrase.Proofs.Calendar.NearestStarts
import DatePhrase.Proofs.Engine.ChosenWeeks
import DatePhrase.Proofs.Engine.CombinedOffsets
import DatePhrase.Proofs.Engine.ComingPeriods
import DatePhrase.Proofs.Engine.FallbackGrammars
import DatePhrase.Proofs.Engine.InertCodes
import DatePhrase.Proofs.Engine.OneReading
import DatePhrase.Proofs.Engine.PointAndRange
import DatePhrase.Proofs.Engine.RangeShape
import DatePhrase.Proofs.Engine.Untimed
import DatePhrase.Proofs.Engine.WeekStarts
import DatePhrase.Proofs.Engine.WeekdayAtTime
import DatePhrase.Proofs.Engine.WeekdayTimeFlag
import DatePhrase.Proofs.Engine.WholeWeeks
import DatePhrase.Proofs.Engine.WrittenDates
import DatePhrase.Proofs.Grammar.ForwardBias
import DatePhrase.Proofs.Grammar.FoundTimes
import DatePhrase.Proofs.Grammar.SpelledDays
import DatePhrase.Proofs.Phrase.DayNames
import DatePhrase.Proofs.Phrase.OneShape
import DatePhrase.Proofs.Phrase.RangeDays
import DatePhrase.Proofs.Phrase.SearchedWords
import DatePhrase.Proofs.Pool.Arbitration
import DatePhrase.Proofs.Pool.WholePhrases
import DatePhrase.Proofs.Rendering.RangeListings
import DatePhrase.Proofs.Rendering.Stamps
import DatePhrase.Proofs.Service.HotSwap
import DatePhrase.Proofs.Vocabulary.Alternations
import DatePhrase.Proofs.Vocabulary.LanguageOrder
import DatePhrase.Proofs.Vocabulary.SharedMeanings
import DatePhrase.Service
