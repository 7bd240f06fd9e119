import Flowstatd.Daemon.Days
import Flowstatd.Daemon.Labels
import Flowstatd.Query.Queries

/-!
# Agreement of the queries

The lists take a host's entry by rank and `GetByIP` takes it by slot. Labels lead from the one to
the other, and the agreement of the counters from the totals to the hours.
-/

namespace Flowstatd

open Framework

section Entries

variable {g : Globals} {qsort : List HostFlow → List HostFlow}

theorem label_index (hlabelled : g.Labelled) {i : Nat} {e : HostFlow}
    (he : g.ipTable[i]? = some e) (hsum : e.sum ≠ 0) :
    getIPIdx g.myNet g.nets e.sinAddr = i := by
  rcases hlabelled.label i e he with rfl | hlabel
  · exact absurd rfl hsum
  · exact hlabel

end Entries

end Flowstatd
