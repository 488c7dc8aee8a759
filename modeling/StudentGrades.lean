import StudentGrades.PidFileShutdown
import StudentGrades.Config
import StudentGrades.PhpFilters
import StudentGrades.ScoreFormat
import StudentGrades.ClassParameter
import StudentGrades.DecimalText
import StudentGrades.Connection
import StudentGrades.ConcurrentRequests
import StudentGrades.QueryParams
import StudentGrades.DocumentView
import StudentGrades.PhpMarkup
import StudentGrades.DeployedPage
import StudentGrades.Browsing
import StudentGrades.DatabaseSettings
import StudentGrades.RangeRequests
import StudentGrades.PoolCalls
