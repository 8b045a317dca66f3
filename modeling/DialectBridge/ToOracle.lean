import DialectBridge.Detection
import DialectBridge.Entity
import DialectBridge.ToOracle.Calls
import DialectBridge.ToOracle.Clauses
import DialectBridge.ToOracle.RowLimit
import DialectBridge.ToOracle.Words
/-!
# From T-SQL to Oracle

The rules in the order in which they run. `FROM DUAL` comes last: by then every query block has
the clauses that it will have.
-/
namespace DialectBridge.ToOracle

/-- The rules from T-SQL to Oracle, in order. -/
def rules : List Rule := [
  Entity.rule,
  ⟨"detect_tsql_only", fun _ => Detection.detectTsql⟩,
  ⟨"top_to_rownum", fun _ => topToRownum⟩,
  ⟨"current_datetime", fun _ sql => return currentDatetime sql⟩,
  ⟨"null_functions", fun _ => nullFunctions⟩,
  ⟨"concatenation", fun _ => concatenation⟩,
  ⟨"date_functions", fun _ => dateFunctions⟩,
  ⟨"conversion_functions", fun _ => conversionFunctions⟩,
  ⟨"string_functions", fun _ => stringFunctions⟩,
  ⟨"string_agg", fun _ => stringAgg⟩,
  ⟨"aggregates", fun _ => aggregates⟩,
  ⟨"set_operators", fun _ sql => return setOperators sql⟩,
  ⟨"offset_fetch", fun _ => offsetFetch⟩,
  ⟨"bracket_identifiers", fun _ => bracketIdentifiers⟩,
  ⟨"table_hints", fun _ => tableHints⟩,
  ⟨"from_dual", fun _ => fromDual⟩]

end DialectBridge.ToOracle
