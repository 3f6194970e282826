import IL2C.CTypes
import IL2C.Decimal
import IL2C.Win32.Twtoi
import IL2C.Win32.Itow
import IL2C.Win32.RoundTrip
import IL2C.Runtime.Arrays
import IL2C.Blink.Program
import IL2C.Blink.Reference
import IL2C.Blink.Refinement
