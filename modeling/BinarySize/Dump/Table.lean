import BinarySize.ByteSize.Kilobytes
import BinarySize.Dump.Function

/-!
# The table of functions

The report on a dump alone: a short heading and one row of fixed columns for each function.
-/

namespace BinarySize.Dump

open Text

def tableRow (number bytes kilobytes location name : Text) : Text :=
  padLeft 3 number ++ ' ' :: padLeft 10 bytes ++ ' ' :: padLeft 10 kilobytes
    ++ ' ' :: padRight 60 location ++ ' ' :: name

def tableHeader : Text :=
  tableRow "No.".toList "Size(B)".toList "Size(KB)".toList "File:Line".toList "Function".toList

def functionRow (number : Nat) (f : SizedFunction) : Text :=
  tableRow (decimal number) (decimal f.size.bytes) f.size.kilobytesLabel f.location f.name

def functionRows (number : Nat) : List SizedFunction → List Text
  | [] => []
  | f :: rest => functionRow number f :: functionRows (number + 1) rest

def tableLines (source : Text) (functions : List SizedFunction) : List Text :=
  ["DWARF size report".toList,
   "Input: ".toList ++ source,
   "Count: ".toList ++ decimal functions.length,
   [],
   tableHeader,
   List.replicate tableHeader.length '-'] ++ functionRows 1 functions

def table (source : Text) (functions : List SizedFunction) : Text :=
  unlines (tableLines source functions)

end BinarySize.Dump
