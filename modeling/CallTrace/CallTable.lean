/-!
What is known of calls by their names: their numbers, and which concern the network, files or
processes.
-/

namespace CallTrace

/-- Knowledge of calls by their names. -/
structure CallTable where
  /-- The number of a call, if it is known. -/
  indexOf : String → Option UInt32
  isNetwork : String → Bool
  isFilesystem : String → Bool
  isProcess : String → Bool

/-- The table of listed calls; of entries for one name the last counts. -/
def CallTable.ofLists (index : List (String × UInt32)) (network filesystem process : List String) :
    CallTable where
  indexOf name := List.lookup name index.reverse
  isNetwork name := network.contains name
  isFilesystem name := filesystem.contains name
  isProcess name := process.contains name

end CallTrace
