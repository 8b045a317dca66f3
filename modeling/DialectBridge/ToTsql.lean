import DialectBridge.Detection
import DialectBridge.Entity
import DialectBridge.ToTsql.Aggregates
import DialectBridge.ToTsql.Calls
import DialectBridge.ToTsql.RowLimit
import DialectBridge.ToTsql.Words
/-!
# From Oracle to T-SQL

The rules in the order in which they run. Entities are decoded before anything is read, and
`NVL2` and `DECODE` are gone before the functions that may stand in their arguments are looked
at.
-/
namespace DialectBridge.ToTsql

/-- The rules from Oracle to T-SQL, in order. -/
def rules : List Rule := [
  Entity.rule,
  ⟨"detect_unsupported", fun _ => Detection.detectOracle⟩,
  ⟨"nvl", fun _ => nvl⟩,
  ⟨"nvl2", fun _ => nvl2⟩,
  ⟨"decode", fun _ => decode⟩,
  ⟨"current_datetime", fun _ sql => return currentDatetime sql⟩,
  ⟨"concatenation", fun _ sql => return concatenation sql⟩,
  ⟨"cast_types", fun _ => castTypes⟩,
  ⟨"trunc", fun _ => trunc⟩,
  ⟨"date_functions", fun _ => dateFunctions⟩,
  ⟨"conversion_functions", fun _ => conversionFunctions⟩,
  ⟨"string_functions", fun _ => stringFunctions⟩,
  ⟨"listagg", listagg⟩,
  ⟨"aggregates", fun _ => aggregates⟩,
  ⟨"regexp_functions", fun _ => regexpFunctions⟩,
  ⟨"set_operators", fun _ sql => return setOperators sql⟩,
  ⟨"from_dual", fun _ => fromDual⟩,
  ⟨"rownum_limit", fun _ => rownumLimit⟩,
  ⟨"fetch_first", fun _ => fetchFirst⟩]

end DialectBridge.ToTsql
