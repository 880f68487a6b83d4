import Sl3.RoundTrip
import Sl3.Selection
import Sl3.Execution
import Sl3.Reentrancy
import Sl3.Lifetime
import Sl3.Ordering
import Sl3.DbValueObjects
import Sl3.ValueObjects
import Sl3.Finalization
import Sl3.Transaction
import Sl3.TransactionRuns
import Sl3.MixedNumbers
import Sl3.Conversion
import Sl3.DatasetRuns
import Sl3.ParameterCount
import Sl3.Snapshot
import Sl3.Disconnected
import Sl3.Coherence
import Sl3.ParameterSetting
import Sl3.Merging
import Sl3.Preparation
import Sl3.Sorting
import Sl3.TypedEquality
import Sl3.Storing
import Sl3.FailingCopies
import Sl3.Library.Positional
import Sl3.IntegerText
import Sl3.Mem
import Sl3.Reading
import Sl3.Isolation
import Sl3.Queries
import Sl3.Copying
import Sl3.SqliteSorting
import Sl3.SortErasure
import Sl3.Getters
import Sl3.OrderBy
import Sl3.Trichotomy
import Sl3.History
import Sl3.UnionAll
