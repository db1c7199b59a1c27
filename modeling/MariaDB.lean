import MariaDB.Bytes.BigEndian
import MariaDB.Bytes.MyIsamPack
import MariaDB.Search.Bisect
import MariaDB.Decimal.Basic
import MariaDB.Decimal.Bin
import MariaDB.Decimal.BinSize
import MariaDB.Decimal.Cmp
import MariaDB.Decimal.CmpOrder
import MariaDB.Decimal.Integer
import MariaDB.Decimal.Round
import MariaDB.Decimal.Shift
import MariaDB.Radix.Carry
import MariaDB.Decimal.Add
import MariaDB.Decimal.Strtoll10
import MariaDB.Decimal.BinOrder
import MariaDB.Decimal.String
import MariaDB.Decimal.StringRoundTrip
import MariaDB.Decimal.Strtoll10Spec
import MariaDB.Temporal.Basic
import MariaDB.Temporal.Packed
import MariaDB.Temporal.PackedTime
import MariaDB.Temporal.PackedDatetime
import MariaDB.Temporal.Tztime
import MariaDB.Temporal.TztimeRanges
import MariaDB.Temporal.Text
import MariaDB.Temporal.Parse
import MariaDB.Temporal.TextDigits
import MariaDB.Temporal.TextRoundTrip
import MariaDB.Temporal.PackTime
import MariaDB.Ctype.Unicode
import MariaDB.Json.String
import MariaDB.Json.Scanner
import MariaDB.Json.Rfc8259
import MariaDB.Json.Escape
import MariaDB.Json.Path
import MariaDB.Json.Find
import MariaDB.Calendar.DayNumber
import MariaDB.Temporal.Daynr
import MariaDB.Temporal.DaynrCalendar
import MariaDB.Temporal.Week
import MariaDB.Temporal.DateAdd
import MariaDB.Temporal.SecToTime
import MariaDB.Bytes.LittleEndian
import MariaDB.Search.Bsearch
import MariaDB.Dyncol.Format
import MariaDB.Dyncol.Values
import MariaDB.Dyncol.Record
import MariaDB.Dyncol.Update
import MariaDB.Hash.Basic
import MariaDB.Chain.Threaded
import MariaDB.Hash.Index
import MariaDB.Hash.Split
import MariaDB.Hash.Insert
import MariaDB.Hash.Delete
import MariaDB.Hash.Update
import MariaDB.Hash.Run
import MariaDB.Rpl.Gtid
import MariaDB.Radix.SignMagnitude
import MariaDB.Radix.TwosComplement
import MariaDB.Sql.IntArith
import MariaDB.Unicode.Utf8
import MariaDB.Ctype.Utf8mb4
import MariaDB.Order.ThreeWay
import MariaDB.Ctype.Simple
import MariaDB.Mysys.Base64
import MariaDB.Search.LowerBound
import MariaDB.Innobase.ReadView
import MariaDB.Hash.Keyed
import MariaDB.Rpl.BinlogState
import MariaDB.Mysys.Qsort
import MariaDB.SqlCommon.Pack
import MariaDB.Innobase.Mach
import MariaDB.Strings.Longlong2str
import MariaDB.Bits.Words
import MariaDB.Bits.Lanes
import MariaDB.Mysys.MyBitmap
import MariaDB.Mysys.MyBitmapQuery
import MariaDB.Mysys.MyBitmapUpdate
import MariaDB.Pattern.Wildcard
import MariaDB.Ctype.Wildcmp
import MariaDB.Ctype.Ascii
import MariaDB.Heap.Binary
import MariaDB.Mysys.Queues
import MariaDB.Mysys.QueuesSift
import MariaDB.Mysys.QueuesRun
import MariaDB.Bytes.Memory
import MariaDB.Innobase.MtrLog
import MariaDB.Innobase.Recv
import MariaDB.Innobase.RecvMtr
import MariaDB.Innobase.RecvRun
