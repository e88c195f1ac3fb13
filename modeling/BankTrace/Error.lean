import BankTrace.Path
import BankTrace.Text.Quoted
import BankTrace.Text.Utf8

/-!
# Errors

What can go wrong, by cause. A configuration error is found in a region, a bank, a snapshot or a
manifest before anything is analysed; a load error takes one bank out of the analysis; a read error
is an access outside a bank or a log file; a decode error ends one path of a traversal; a blank
error is a switch without a value where the job needs one. The wording of every error is in the
`message` functions and nowhere else.
-/

namespace BankTrace

open Numeral (marked markedSix dollar)

/-- A mistake in a region, a bank, a snapshot or a manifest. -/
inductive ConfigError where
  /-- A region starts outside the address space. -/
  | regionStart (start : Int)
  /-- A region has no address. -/
  | regionLength (start size : Int)
  /-- A region ends behind the address space. -/
  | regionEnd (start size : Int)
  /-- A table of permissions has the wrong length. -/
  | tableLength (length : Nat)
  /-- A bank has an empty name. -/
  | bankName
  /-- The length of a bank is not a power of two. -/
  | bankLength (name : String) (size : Int)
  /-- A bank starts outside the address space. -/
  | bankStart (name : String) (start : Int)
  /-- A bank does not start at a multiple of its length. -/
  | bankAlignment (name : String) (start size : Int)
  /-- A bank ends behind the address space. -/
  | bankEnd (name : String) (start size : Int)
  /-- A bank has a negative offset into one of its files. -/
  | bankOffset (name : String)
  /-- Two banks have one name. -/
  | duplicateBank (name : String)
  /-- A fixed bank shares an address with another bank. -/
  | fixedOverlap (first second : String)
  /-- A snapshot selects a name that no bank has. -/
  | unknownBank (name : String)
  /-- A snapshot puts a bank into a window that starts elsewhere. -/
  | wrongWindow (name : String) (window : Int)
  /-- A snapshot maps two banks to one address. -/
  | windowOverlap (first second : String)
  /-- The command line names a bank that the manifest does not declare. -/
  | unknownTarget (name : String)
  /-- A manifest is not a document of its format. -/
  | malformed
  /-- A table has keys that are not allowed there. -/
  | unknownKeys (place : String) (keys : List String)
  /-- A table lacks a key. -/
  | missingKey (place key : String)
  /-- A value is not an integer. -/
  | notInteger (place key shown : String)
  /-- A value is not a truth value. -/
  | notBoolean (place key shown : String)
  /-- A value is not a string. -/
  | notString (place key shown : String)
  /-- A value is not an array of tables. -/
  | notTables (key : String)
  /-- A value is not a table. -/
  | notTable (key : String)
  /-- A manifest declares no bank. -/
  | noBanks
  deriving DecidableEq

/-- The wording of a configuration error. -/
def ConfigError.message : ConfigError → String
  | regionStart start => "region start out of range: " ++ marked start
  | regionLength start size =>
    "region at " ++ markedSix start ++ " has non-positive length " ++ toString size
  | regionEnd start size =>
    "region overflows the address space (start=" ++ marked start ++ ", len=" ++ marked size ++ ")"
  | tableLength length =>
    "permission table must cover 0X10000 addresses, got " ++ marked length
  | bankName => "bank name must not be empty"
  | bankLength name size =>
    "bank '" ++ name ++ "': len " ++ marked size ++ " is not a power of two"
  | bankStart name start => "bank '" ++ name ++ "': start " ++ marked start ++ " out of range"
  | bankAlignment name start size =>
    "bank '" ++ name ++ "': start " ++ markedSix start ++ " is not aligned to its len " ++
      marked size
  | bankEnd name start size =>
    "bank '" ++ name ++ "' overflows the address space (start=" ++ marked start ++ ", len=" ++
      marked size ++ ")"
  | bankOffset name => "bank '" ++ name ++ "': negative file offset"
  | duplicateBank name => "duplicated bank name: '" ++ name ++ "'"
  | fixedOverlap first second =>
    "fixed bank must not intersect with another bank: bank '" ++ first ++ "' and '" ++ second ++
      "'"
  | unknownBank name => "mapper state selects unknown bank '" ++ name ++ "'"
  | wrongWindow name window =>
    "bank '" ++ name ++ "' does not start at window " ++ dollar window
  | windowOverlap first second =>
    "banks '" ++ first ++ "' and '" ++ second ++ "' are both active over an overlapping window"
  | unknownTarget name => "target bank '" ++ name ++ "' not found"
  | malformed => "invalid TOML"
  | unknownKeys place keys => place ++ ": unknown key(s): " ++ ", ".intercalate keys
  | missingKey place key => place ++ ": missing '" ++ key ++ "'"
  | notInteger place key shown =>
    place ++ ": '" ++ key ++ "' must be an integer, got " ++ shown
  | notBoolean place key shown =>
    place ++ ": '" ++ key ++ "' must be true or false, got " ++ shown
  | notString place key shown => place ++ ": '" ++ key ++ "' must be a string, got " ++ shown
  | notTables key => "'" ++ key ++ "' must be an array of tables"
  | notTable key => "'" ++ key ++ "' must be a table"
  | noBanks => "manifest declares no banks"

/-- A request that the file system refuses, with the text of the path that was asked for. -/
inductive FileError where
  /-- A step of the path does not exist. -/
  | notFound (text : String)
  /-- Something has that name already. -/
  | exists (text : String)
  /-- A step of the path that has to be a directory is a file. -/
  | notDirectory (text : String)
  /-- The path is a directory. -/
  | isDirectory (text : String)
  /-- A name is longer than file systems allow. -/
  | nameTooLong (text : String)
  /-- A position before the start of a file. -/
  | badPosition
  /-- A path holds the null character, which ends every path. -/
  | nullInPath
  /-- A file cannot be moved over a directory. -/
  | overDirectory (source target : String)
  /-- Nothing can be moved to a path that ends in no name of its own. -/
  | busy (source target : String)
  deriving DecidableEq

/-- The wording of a refusal. -/
def FileError.message : FileError → String
  | notFound text => "[Errno 2] No such file or directory: " ++ Quoted.render text
  | «exists» text => "[Errno 17] File exists: " ++ Quoted.render text
  | notDirectory text => "[Errno 20] Not a directory: " ++ Quoted.render text
  | isDirectory text => "[Errno 21] Is a directory: " ++ Quoted.render text
  | nameTooLong text => "[Errno 36] File name too long: " ++ Quoted.render text
  | badPosition => "[Errno 22] Invalid argument"
  | nullInPath => "embedded null byte"
  | overDirectory source target =>
    "[Errno 21] Is a directory: " ++ Quoted.render source ++ " -> " ++ Quoted.render target
  | busy source target =>
    "[Errno 16] Device or resource busy: " ++ Quoted.render source ++ " -> " ++
      Quoted.render target

/-- Why a stretch of a file could not be read. -/
inductive RangeError where
  /-- The file could not be opened. -/
  | file (error : FileError)
  /-- The file ends too early. -/
  | short (path : Path) (got : Nat) (wanted offset : Int)
  /-- The offset does not fit into 64 bits. -/
  | offsetTooLarge
  /-- The length does not fit into 64 bits. -/
  | sizeTooLarge
  /-- The length is negative. -/
  | negativeSize
  /-- The length leaves no room in 64 bits for what belongs to the bytes. -/
  | noRoom
  /-- So many bytes do not fit into memory. -/
  | outOfMemory
  deriving DecidableEq

/-- The message for a size or an index that does not fit into 64 bits. -/
def indexTooLargeText : String := "cannot fit 'int' into an index-sized integer"

/-- The wording of a failed read of a stretch. -/
def RangeError.message : RangeError → String
  | file error => error.message
  | short path got wanted offset =>
    "'" ++ path.toString ++ "' has only " ++ marked got ++ " of " ++ marked wanted ++
      " bytes at offset " ++ marked offset
  | offsetTooLarge => "cannot fit 'int' into an offset-sized integer"
  | sizeTooLarge => indexTooLargeText
  | negativeSize => "read length must be non-negative or -1"
  | noRoom => "byte string is too large"
  | outOfMemory => ""

/-- Why the image of a bank could not be loaded. -/
inductive LoadError where
  /-- The image file does not exist. -/
  | missing (bank : String) (file : Path)
  /-- The bytes of the bank could not be read. -/
  | unreadable (bank : String) (size offset : Nat) (cause : RangeError)
  deriving DecidableEq

/-- The wording of a failed load. -/
def LoadError.message : LoadError → String
  | missing bank file => "bank '" ++ bank ++ "': file not found: " ++ file.toString
  | unreadable bank size offset cause =>
    "bank '" ++ bank ++ "': can't read " ++ marked size ++ " bytes at " ++ marked offset ++ ": " ++
      cause.message

/-- An access outside a bank or a log file. -/
inductive ReadError where
  /-- An offset that the bank does not have. -/
  | outsideBank (offset : Int) (bank : String) (size : Nat)
  /-- A bank without an image. -/
  | notLoaded (bank : String)
  /-- A text that spells the path of no log file. -/
  | unknownFile (text : String)
  /-- A stretch that the log file does not have. -/
  | outsideFile (offset count : Int) (text : String) (size : Nat)
  deriving DecidableEq

/-- The wording of an access outside a bank or a log file. -/
def ReadError.message : ReadError → String
  | outsideBank offset bank size =>
    "offset " ++ marked offset ++ " outside bank '" ++ bank ++ "' (len=" ++ marked size ++ ")"
  | notLoaded bank => "bank '" ++ bank ++ "' has no loaded contents"
  | unknownFile text => "unknown CDL file: " ++ text
  | outsideFile offset count text size =>
    "CDL offset " ++ marked offset ++ " (+" ++ toString count ++ ") outside '" ++ text ++
      "' (size=" ++ marked size ++ ")"

/-- Why there is no instruction at an address. -/
inductive DecodeError where
  /-- There is no byte. -/
  | noBytes
  /-- The first byte must not be executed. -/
  | opcodeNotExecutable
  /-- The encoding runs past the end of the address space. -/
  | pastTop (mnemonic : String)
  /-- A later byte of the encoding must not be executed. -/
  | operandNotExecutable (mnemonic : String)
  /-- The bank ends inside the encoding. -/
  | truncated (mnemonic : String) (needed left : Nat)
  deriving DecidableEq

/-- The wording of a failed decoding at an address. -/
def DecodeError.message (address : Int) (e : DecodeError) : String :=
  dollar address ++ ": " ++
    match e with
    | noBytes => "no bytes available"
    | opcodeNotExecutable => "opcode byte is not executable"
    | pastTop mnemonic => mnemonic ++ " runs past $FFFF"
    | operandNotExecutable mnemonic => "operand of " ++ mnemonic ++ " is not executable"
    | truncated mnemonic needed left =>
      mnemonic ++ " needs " ++ toString needed ++ " bytes, " ++ toString left ++ " left in bank"

/-- What a job cannot go on with when the switch for it is left blank. -/
inductive BlankError where
  /-- The order of the traversals. -/
  | order
  /-- The name of a bank. -/
  | bank
  /-- The number of workers. -/
  | workers
  /-- An address to start from. -/
  | entry
  /-- The most steps of a traversal. -/
  | limit
  deriving DecidableEq

/-- The wording of a blank that cannot be used. -/
def BlankError.message : BlankError → String
  | order => "[] is not a valid QueueOrder"
  | bank => "unhashable type: 'list'"
  | workers => "'<' not supported between instances of 'list' and 'int'"
  | entry => "unsupported operand type(s) for &: 'list' and 'int'"
  | limit => "'>=' not supported between instances of 'int' and 'list'"

/-- Everything that can go wrong. -/
inductive Error where
  | config (error : ConfigError)
  | file (error : FileError)
  | range (error : RangeError)
  | load (error : LoadError)
  | read (error : ReadError)
  | decode (address : Int) (error : DecodeError)
  | blank (error : BlankError)
  /-- An address outside the address space. -/
  | address (addr : Int)
  /-- An offset behind the end of an image. -/
  | imageIndex
  /-- A traversal by fewer than one worker. -/
  | workers (count : Int)
  /-- A manifest that is not a file. -/
  | noManifest (path : Path)
  /-- A file that is not text. -/
  | notText (fault : Utf8.Fault)
  /-- A decimal numeral with more digits than are read. -/
  | digits (count : Nat)
  /-- A document whose values lie too deep inside each other. -/
  | tooDeep
  /-- A value that a message would have to show, with too many values inside each other. -/
  | tooDeepToShow
  /-- An integer that a message would have to show, with more decimal digits than are written. -/
  | tooLongToShow
  /-- Bits that are not those of a byte. -/
  | notByte
  /-- A log file of negative size. -/
  | negativeSize
  /-- A log file whose size does not fit into 64 bits. -/
  | sizeTooLarge
  /-- A log file that does not fit into memory. -/
  | outOfMemory
  deriving DecidableEq

namespace Error

/-- The wording of an error. -/
def message : Error → String
  | config error => error.message
  | file error => error.message
  | range error => error.message
  | load error => error.message
  | read error => error.message
  | decode place error => error.message place
  | blank error => error.message
  | address addr => "address out of range: " ++ marked addr
  | imageIndex => "index out of range"
  | workers count => "workers must be at least 1, got " ++ toString count
  | noManifest path => "manifest not found: " ++ path.toString
  | notText fault => fault.message
  | digits count => digitLimitText ++ ": value has " ++ toString count ++ " digits" ++ digitAdvice
  | tooDeep => depthLimitText
  | tooDeepToShow => depthLimitText ++ " while getting the repr of an object"
  | tooLongToShow => digitLimitText ++ digitAdvice
  | notByte => "byte must be in range(0, 256)"
  | negativeSize => "negative count"
  | sizeTooLarge => indexTooLargeText
  | outOfMemory => ""
where
  /-- What is wrong with values that lie too deep inside each other. -/
  depthLimitText : String := "maximum recursion depth exceeded"
  /-- What is wrong with a decimal numeral that is too long. -/
  digitLimitText : String := "Exceeds the limit (4300 digits) for integer string conversion"
  /-- What can be done about it. -/
  digitAdvice : String := "; use sys.set_int_max_str_digits() to increase the limit"

/-- The error is one that the user can mend: a wrong setting or a file that cannot be used. The
others are reported as unexpected. -/
def isExpected : Error → Bool
  | config _ | file _ | load _ | workers _ | noManifest _ | notText _ | digits _ | tooLongToShow
  | notByte | negativeSize | blank .order => true
  | range error =>
    match error with
    | .file _ | .offsetTooLarge | .negativeSize => true
    | .short .. | .sizeTooLarge | .noRoom | .outOfMemory => false
  | read _ | decode .. | address _ | imageIndex | tooDeep | tooDeepToShow | sizeTooLarge
  | outOfMemory | blank _ => false

end Error

instance : Coe ConfigError Error := ⟨.config⟩

instance : Coe FileError Error := ⟨.file⟩

instance : Coe ReadError Error := ⟨.read⟩

end BankTrace
