import Shelfmark.Json.Literal
import Shelfmark.Pattern.Basic

/-!
# Faults

Everything that can go wrong, as causes.

* `Fault.message`: the wording of a fault.
* `Fault.isRefusal`: a fault that lies in what was given.
* `Fault.isOfSnapshot`: a fault of a snapshot.
-/

namespace Shelfmark

/-- Why something was refused or failed. -/
inductive Fault
  /-- A text or a number that does not read as what is asked for. -/
  | unreadable
  /-- A text that should spell a whole number. -/
  | noWholeNumber (text : String)
  /-- A text that should spell a number. -/
  | noNumber (text : String)
  /-- A whole number with more digits than are read or written. -/
  | numberTooLong
  /-- A number outside the range of dates or of machine numbers. -/
  | outOfRange (what : String)
  /-- A time that the system's clock cannot hold. -/
  | beyondClock
  /-- A value of the wrong type. -/
  | wrongType (what : String)
  /-- A value of a kind that has no such part. -/
  | noSuchPart (kind part : String)
  /-- A record without a field that it must have. -/
  | missingField (name : String)
  | limitNotPositive
  | offsetNegative
  | unknownSort (name : String)
  | unknownFields (names : List String)
  | similarityOutOfRange
  | maxPairsNotPositive
  | sampleTooSmall
  | dateRangeReversed
  | rangeReversed (name : String)
  /-- A pattern is refused in a way that does not only drop it. -/
  | pattern (refusal : Pattern.Refusal)
  /-- A snapshot that is no object. -/
  | snapshotNoObject
  /-- A snapshot of another schema. -/
  | snapshotVersion (found : String) (expected : Nat)
  /-- A document of a snapshot under other fields than the index has. -/
  | snapshotFields (id : String)
  /-- A snapshot without a part. -/
  | snapshotLacks (part : String)
  /-- A snapshot with a part of the wrong type. -/
  | snapshotCorrupt
  /-- A cached value of another schema. -/
  | cacheVersion (key found : String) (expected : Nat)
  /-- A text that is no JSON. -/
  | malformedText
  /-- A text with half of a surrogate pair, which stands for no character. -/
  | loneSurrogate
  /-- Something is nested deeper than the host has room for. -/
  | tooDeep
  | storeClosed
  /-- The store is out of order. -/
  | storeDown (message : String)
  /-- A column of the store whose bytes are no text. -/
  | undecodable
  /-- A pattern with wildcards that is too long for the store. -/
  | wildcardTooLong
  /-- The index is out of order. -/
  | indexDown
  | noFile (path : String)
  | isDirectory (path : String)
  /-- The home directory of somebody who is not known. -/
  | noHome
  | unknownSystem (name : String)

namespace Fault

/-- A list of names as it stands in a message. -/
def nameList (names : List String) : String := Json.spelling (Json.ofStrings names)

/-- The wording of a fault. -/
def message : Fault → String
  | unreadable => "unreadable value"
  | noWholeNumber text => "invalid literal for int() with base 10: " ++ Json.literalText text
  | noNumber text => "could not convert string to float: " ++ Json.literalText text
  | numberTooLong => "Exceeds the limit (4300 digits) for integer string conversion"
  | outOfRange what => what
  | beyondClock => "[Errno 75] Value too large for defined data type"
  | wrongType what => what
  | noSuchPart kind part => Json.literalText kind ++ " object has no attribute " ++ Json.literalText part
  | missingField name => Json.literalText name
  | limitNotPositive => "limit must be positive"
  | offsetNegative => "offset must not be negative"
  | unknownSort name => "Unknown sort option: " ++ name
  | unknownFields names => "Unknown search fields: " ++ nameList names
  | similarityOutOfRange => "min_similarity must be between 0 and 1"
  | maxPairsNotPositive => "max_pairs must be positive"
  | sampleTooSmall => "sample_size must be at least 2"
  | dateRangeReversed => "date_range start must not be after end"
  | rangeReversed name => name ++ " minimum must not exceed maximum"
  | pattern .tooManyRounds => "the repetition number is too large"
  | pattern .conflictingModes => "ASCII and UNICODE flags are incompatible"
  | pattern .tooDeep => "maximum recursion depth exceeded"
  | pattern _ => "malformed pattern"
  | snapshotNoObject => "Index snapshot is not a mapping"
  | snapshotVersion found expected =>
    "Index snapshot version " ++ found ++ " does not match " ++ toString expected
  | snapshotFields id => "Document " ++ Json.literalText id ++ " has unexpected fields"
  | snapshotLacks part => "Corrupt index snapshot: " ++ Json.literalText part
  | snapshotCorrupt => "Corrupt index snapshot"
  | cacheVersion key found expected =>
    "Cache entry " ++ Json.literalText key ++ " has schema version " ++ found ++ ", expected " ++ toString expected
  | malformedText => "Malformed bookmarks file"
  | loneSurrogate => "surrogates not allowed"
  | tooDeep => "maximum recursion depth exceeded"
  | storeClosed => "Database not initialized. Call initialize() first."
  | storeDown message => message
  | undecodable => "Could not decode to UTF-8 column"
  | wildcardTooLong => "LIKE or GLOB pattern too complex"
  | indexDown => "index down"
  | noFile path => "Bookmarks file not found at " ++ path
  | isDirectory path => "[Errno 21] Is a directory: " ++ Json.literalText path
  | noHome => "Could not determine home directory."
  | unknownSystem name => "Unsupported operating system: " ++ name

/-- A fault that lies in what was given, and not in the system. -/
def isRefusal : Fault → Bool
  | unreadable | noWholeNumber _ | noNumber _ | numberTooLong | limitNotPositive | offsetNegative | unknownSort _
  | unknownFields _ | similarityOutOfRange | maxPairsNotPositive | sampleTooSmall | dateRangeReversed
  | rangeReversed _ | malformedText | loneSurrogate => true
  | pattern r => r != .tooManyRounds && r != .tooDeep
  | _ => false

/-- A fault of a snapshot: it is no snapshot of an index, or none of this layout. -/
def isOfSnapshot : Fault → Bool
  | snapshotNoObject | snapshotVersion _ _ | snapshotFields _ | snapshotLacks _ | snapshotCorrupt => true
  | _ => false

end Fault

end Shelfmark
